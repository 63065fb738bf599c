import TemplateAnalysis.Proofs.TypeGraph.Returned

/-!
# Qualifiers added and taken away

Qualifiers are added to the elements of a type, below all its arrays, and are taken away from
the type itself, which for an array changes nothing. Each is a function on trees, with laws of
its own; the laws hold of the types that a graph returns, since these are the same if their
trees are. Adding is union of sets, and forming arrays commutes with it. Taking away undoes
adding for every type that is not an array.
-/

namespace TemplateAnalysis

namespace BaseKey

@[simp] theorem qualifiers_withQualifiers (key : BaseKey) (q : Qualifiers) :
    (key.withQualifiers q).qualifiers = q := by
  cases key <;> rfl

@[simp] theorem withQualifiers_withQualifiers (key : BaseKey) (q r : Qualifiers) :
    (key.withQualifiers q).withQualifiers r = key.withQualifiers r := by
  cases key <;> rfl

end BaseKey

namespace TypeTree

/-- What an array of any rank has as its elements; any other type is its own element. -/
def element : TypeTree → TypeTree
  | array t _ => t.element
  | t => t

/-- Whether qualifiers may be added to a type: references and functions have none, and neither
have arrays of them. -/
def isQualifiable (t : TypeTree) : Bool := !(t.element.isReference || t.element.isFunction)

/-! ### Adding -/

theorem qualify_qualify (t : TypeTree) (a b : Qualifiers) :
    (t.qualify a).qualify b = t.qualify (a.union b) := by
  induction t using qualify.induct with
  | case1 key => simp [qualify, Qualifiers.union_assoc]
  | case2 target own => simp [qualify, Qualifiers.union_assoc]
  | case3 element bound ih => simp only [qualify, ih]
  | case4 t hbase hpointer harray => cases t <;> simp_all [qualify]

/-- The qualifiers after adding: the union, or for a type that takes none, the same type. -/
theorem qualify_spec (t : TypeTree) (a : Qualifiers) :
    (t.isQualifiable = true → (t.qualify a).qualifiers = t.qualifiers.union a) ∧
      (t.isQualifiable = false → t.qualify a = t) := by
  induction t using qualify.induct with
  | case1 key => simp [qualify, qualifiers, isQualifiable, element, isReference, isFunction]
  | case2 target own => simp [qualify, qualifiers, isQualifiable, element, isReference, isFunction]
  | case3 t bound ih =>
    rw [qualify]
    exact ⟨ih.1, fun h => congrArg (array · bound) (ih.2 h)⟩
  | case4 t hbase hpointer harray =>
    cases t <;> simp_all [qualify, isQualifiable, element, isReference, isFunction]

theorem qualify_foldl_array (bounds : List (Option UInt64)) (t : TypeTree) (a : Qualifiers) :
    (bounds.foldl array t).qualify a = bounds.foldl array (t.qualify a) := by
  induction bounds generalizing t with
  | nil => rfl
  | cons bound bounds ih => exact ih (.array t bound)

@[simp] theorem isArray_qualify (t : TypeTree) (a : Qualifiers) :
    (t.qualify a).isArray = t.isArray := by
  cases t <;> rfl

/-! ### Taking away -/

theorem unqualified_of_isArray {t : TypeTree} (h : t.isArray = true) : t.unqualified = t := by
  cases t <;> first | rfl | cases h

@[simp] theorem isArray_unqualified (t : TypeTree) : t.unqualified.isArray = t.isArray := by
  cases t <;> rfl

theorem unqualified_unqualified (t : TypeTree) : t.unqualified.unqualified = t.unqualified := by
  cases t <;> simp [unqualified]

theorem qualifiers_unqualified (t : TypeTree) :
    t.unqualified.qualifiers = if t.isArray then t.qualifiers else .none := by
  cases t <;> simp [unqualified, qualifiers, isArray]

/-- For an array, what was added stays. -/
theorem unqualified_qualify_iff (t : TypeTree) (a : Qualifiers) :
    (t.qualify a).unqualified = t.unqualified ↔ t.isArray = false ∨ t.qualify a = t := by
  cases harray : t.isArray with
  | false =>
    refine ⟨fun _ => .inl rfl, fun _ => ?_⟩
    cases t with
    | array _ _ => cases harray
    | _ => simp [qualify, unqualified]
  | true =>
    rw [unqualified_of_isArray harray, unqualified_of_isArray ((isArray_qualify t a).trans harray)]
    simp

end TypeTree

namespace TypeGraph

variable {g : TypeGraph} {t x y : TypeId}

def arraysOf (bounds : List (Option UInt64)) : List (TypeId → Operation) :=
  bounds.map fun bound element => .array element bound

theorem ReturnedAlong.tree_arrays {bounds : List (Option UInt64)}
    (h : g.ReturnedAlong (arraysOf bounds) t x) : g.tree x = bounds.foldl .array (g.tree t) := by
  induction bounds generalizing t with
  | nil =>
    obtain ⟨_, rfl⟩ := h
    rfl
  | cons bound bounds ih =>
    obtain ⟨y, hy, hrest⟩ := h
    rw [ih hrest, hy.tree_array]
    rfl

/-- How a graph adds qualifiers to types. -/
structure QualifiesBySets (g : TypeGraph) : Prop where
  /-- Qualifiers may be added to every type. -/
  returns : ∀ {t : TypeId} (a : Qualifiers), g.Has t →
    ∃ f x, Run g f ∧ f.Returned (.qualify t a) x
  /-- Adding twice is adding the union. -/
  union : ∀ {t x y z : TypeId} {a b : Qualifiers}, g.Returned (.qualify t a) x →
    g.Returned (.qualify x b) y → g.Returned (.qualify t (a.union b)) z → y = z
  /-- What was added is not added again. -/
  again : ∀ {t x y : TypeId} {a : Qualifiers}, g.Returned (.qualify t a) x →
    g.Returned (.qualify x a) y → y = x
  /-- The order of two additions does not matter. -/
  comm : ∀ {t x y x' y' : TypeId} {a b : Qualifiers}, g.Returned (.qualify t a) x →
    g.Returned (.qualify x b) y → g.Returned (.qualify t b) x' → g.Returned (.qualify x' a) y' →
    y = y'
  /-- Adding to an array is forming the array of what has them, and the same for arrays of
  arrays of any rank. -/
  arrays : ∀ {t x y t' x' : TypeId} {a : Qualifiers} (bounds : List (Option UInt64)),
    g.ReturnedAlong (arraysOf bounds) t x → g.Returned (.qualify x a) y →
    g.Returned (.qualify t a) t' → g.ReturnedAlong (arraysOf bounds) t' x' → y = x'
  /-- Unless the elements are references or functions, the qualifiers are the union. -/
  qualifiers : ∀ {t x : TypeId} {a : Qualifiers}, g.Returned (.qualify t a) x →
    (g.tree t).element.isReference = false → (g.tree t).element.isFunction = false →
    (g.tree x).qualifiers = (g.tree t).qualifiers.union a
  /-- If they are references or functions, nothing is added. -/
  unchanged : ∀ {t x : TypeId} {a : Qualifiers}, g.Returned (.qualify t a) x →
    (g.tree t).element.isReference = true ∨ (g.tree t).element.isFunction = true → x = t

/-- Types are compared by their trees, on which the laws are those of `TypeTree.qualify`. -/
theorem qualifiesBySets (hrun : Run empty g) : g.QualifiesBySets where
  returns _ ht := exists_returned hrun (Operation.isOn_of_operands rfl ht) rfl
  union hx hy hz := hy.eq_of_tree hz <| by
    rw [hy.tree_qualify, hx.tree_qualify, hz.tree_qualify, TypeTree.qualify_qualify]
  again hx hy := hy.eq_of_tree hx <| by
    rw [hy.tree_qualify, hx.tree_qualify, TypeTree.qualify_qualify, Qualifiers.union_self]
  comm hx hy hx' hy' := hy.eq_of_tree hy' <| by
    rw [hy.tree_qualify, hx.tree_qualify, hy'.tree_qualify, hx'.tree_qualify,
      TypeTree.qualify_qualify, TypeTree.qualify_qualify, Qualifiers.union_comm]
  arrays bounds hx hy ht' hx' := tree_injective hy.canonical hy.has hx'.has <| by
    rw [hy.tree_qualify, hx.tree_arrays, hx'.tree_arrays, ht'.tree_qualify,
      TypeTree.qualify_foldl_array]
  qualifiers hx hreference hfunction := by
    rw [hx.tree_qualify]
    exact (TypeTree.qualify_spec _ _).1 (by simp [TypeTree.isQualifiable, hreference, hfunction])
  unchanged hx h := tree_injective hx.canonical hx.has (hx.has_operand rfl) <| by
    rw [hx.tree_qualify]
    exact (TypeTree.qualify_spec _ _).2 <| by
      rcases h with h | h <;> simp [TypeTree.isQualifiable, h]

/-- How a graph takes qualifiers away from types. -/
structure StripsQualifiers (g : TypeGraph) : Prop where
  /-- They may be taken away from every type. -/
  returns : ∀ {t : TypeId}, g.Has t → ∃ f x, Run g f ∧ f.Returned (.unqualified t) x
  /-- Only an array has qualifiers left, those of its elements. -/
  qualifiers : ∀ {t x : TypeId}, g.Returned (.unqualified t) x →
    (g.tree x).qualifiers = if g.isArray t then (g.tree t).qualifiers else .none
  /-- Taking away again changes nothing. -/
  again : ∀ {t x y : TypeId}, g.Returned (.unqualified t) x → g.Returned (.unqualified x) y →
    y = x
  /-- It takes away what was added, except from an array that this has changed. -/
  undoes : ∀ {t q x y : TypeId} {c : Qualifiers}, g.Returned (.qualify t c) q →
    g.Returned (.unqualified q) x → g.Returned (.unqualified t) y →
    (x = y ↔ g.isArray t = false ∨ q = t)

theorem stripsQualifiers (hrun : Run empty g) : g.StripsQualifiers where
  returns ht := exists_returned hrun (Operation.isOn_of_operands rfl ht) rfl
  qualifiers hx := by
    rw [hx.tree_unqualified, TypeTree.qualifiers_unqualified,
      isArray_tree hx.canonical (hx.has_operand rfl)]
  again hx hy := hy.eq_of_tree hx <| by
    rw [hy.tree_unqualified, hx.tree_unqualified, TypeTree.unqualified_unqualified]
  undoes := by
    intro t q x y c hq hx hy
    have ht := hq.has_operand rfl
    have hsame : ∀ {a b}, g.Has a → g.Has b → (a = b ↔ g.tree a = g.tree b) := fun ha hb =>
      ⟨congrArg g.tree, tree_injective hq.canonical ha hb⟩
    rw [hsame hx.has hy.has, hsame hq.has ht, hx.tree_unqualified, hy.tree_unqualified,
      hq.tree_qualify, TypeTree.unqualified_qualify_iff, isArray_tree hq.canonical ht]

end TypeGraph

end TemplateAnalysis
