import TemplateAnalysis.Proofs.TypeGraph.Unfolding

/-!
# What the operations of a graph do to trees

An operation of the graph looks at the label of a type, and finds or creates a type.
On trees it is a function of its own: the tree of the type that it returns depends on
the tree of its operand only, and not on the types that the graph has.
-/

namespace TemplateAnalysis

namespace TypeTree

def isReference : TypeTree → Bool
  | lvalueReference _ | rvalueReference _ => true
  | _ => false

def isFunction : TypeTree → Bool
  | function _ _ _ _ => true
  | _ => false

def isArray : TypeTree → Bool
  | array _ _ => true
  | _ => false

def isVoid : TypeTree → Bool
  | base (.primitive .void _) => true
  | _ => false

def isPointee (t : TypeTree) : Bool := !t.isReference

def isReferee (t : TypeTree) : Bool := !t.isVoid

def isElement (t : TypeTree) : Bool := !(t.isReference || t.isFunction || t.isVoid)

def isResult (t : TypeTree) : Bool := !(t.isArray || t.isFunction)

def toLvalueReference : TypeTree → TypeTree
  | lvalueReference referee | rvalueReference referee => lvalueReference referee
  | t => lvalueReference t

def toRvalueReference : TypeTree → TypeTree
  | lvalueReference referee => lvalueReference referee
  | rvalueReference referee => rvalueReference referee
  | t => rvalueReference t

/-- The type with more qualifiers. Those of an array are its elements', and references
and functions have none. -/
def qualify (q : Qualifiers) : TypeTree → TypeTree
  | base key => base (key.withQualifiers (key.qualifiers.union q))
  | pointer target own => pointer target (own.union q)
  | array element bound => array (element.qualify q) bound
  | t => t

def unqualified : TypeTree → TypeTree
  | base key => base (key.withQualifiers .none)
  | pointer target _ => pointer target .none
  | t => t

/-- The type of a function parameter declared with a type: arrays and functions become
pointers, and other types lose their qualifiers. -/
def adjusted : TypeTree → TypeTree
  | array element _ => pointer element .none
  | t@(function _ _ _ _) => pointer t .none
  | t => t.unqualified

theorem qualify_none (t : TypeTree) : t.qualify .none = t := by
  induction t using qualify.induct with
  | case1 key => cases key <;> simp [qualify, BaseKey.withQualifiers, BaseKey.qualifiers]
  | case2 target own => simp [qualify]
  | case3 element bound ih => rw [qualify, ih]
  | case4 t hbase hpointer harray =>
    rw [qualify]
    all_goals assumption

end TypeTree

namespace TypeGraph

variable {g : TypeGraph}

/-! ### Reading a type off its tree -/

theorem isReference_tree (hg : g.Canonical) {id : TypeId} (hid : g.Has id) :
    (g.tree id).isReference = g.isReference id := by
  obtain ⟨l, hl, heq⟩ := exists_label? hid
  rcases l with key | ⟨operand, op⟩
  · simp [tree_of_base hl, isReference, op?, heq, TypeTree.isReference]
  · cases op <;>
      simp [tree_of_derived hg hl, isReference, op?, heq, TypeOp.apply, TypeTree.isReference]

theorem isFunction_tree (hg : g.Canonical) {id : TypeId} (hid : g.Has id) :
    (g.tree id).isFunction = g.isFunction id := by
  obtain ⟨l, hl, heq⟩ := exists_label? hid
  rcases l with key | ⟨operand, op⟩
  · simp [tree_of_base hl, isFunction, op?, heq, TypeTree.isFunction]
  · cases op <;>
      simp [tree_of_derived hg hl, isFunction, op?, heq, TypeOp.apply, TypeTree.isFunction]

theorem isArray_tree (hg : g.Canonical) {id : TypeId} (hid : g.Has id) :
    (g.tree id).isArray = g.isArray id := by
  obtain ⟨l, hl, heq⟩ := exists_label? hid
  rcases l with key | ⟨operand, op⟩
  · simp [tree_of_base hl, isArray, op?, heq, TypeTree.isArray]
  · cases op <;> simp [tree_of_derived hg hl, isArray, op?, heq, TypeOp.apply, TypeTree.isArray]

theorem isVoid_tree (hg : g.Canonical) {id : TypeId} (hid : g.Has id) :
    (g.tree id).isVoid = g.isVoid id := by
  obtain ⟨l, hl, heq⟩ := exists_label? hid
  rcases l with key | ⟨operand, op⟩
  · rw [tree_of_base hl, isVoid, primitive?, heq]
    cases key with
    | primitive p _ => cases p <;> rfl
    | symbol _ _ => rfl
  · rw [tree_of_derived hg hl, isVoid, primitive?, heq]
    cases op <;> rfl

/-! ### Operations -/

theorem tree_base (hg : g.Canonical) (key : BaseKey) :
    (g.base key).2.tree (g.base key).1 = .base key := tree_of_base (base_spec hg key).2.2.1

theorem tree_derive (hg : g.Canonical) {operand : TypeId} (op : TypeOp)
    (hoperand : g.Has operand) (hparameters : ∀ p ∈ op.parameters, g.Has p) :
    (g.derive operand op).2.tree (g.derive operand op).1 = op.apply g.tree (g.tree operand) := by
  obtain ⟨hcanonical, hkept, hlabel, _⟩ := derive_spec hg op hoperand hparameters
  rw [tree_of_derived hcanonical hlabel]
  exact TypeOp.apply_congr (hkept.tree_eq hg hcanonical hoperand)
    fun p hp => hkept.tree_eq hg hcanonical (hparameters p hp)

theorem tree_pointer (hg : g.Canonical) {target : TypeId} (h : g.Has target) (q : Qualifiers) :
    (g.pointer target q).2.tree (g.pointer target q).1 = .pointer (g.tree target) q :=
  tree_derive hg (.pointer q) h (by simp [TypeOp.parameters])

theorem tree_array (hg : g.Canonical) {element : TypeId} (h : g.Has element)
    (bound : Option UInt64) :
    (g.array element bound).2.tree (g.array element bound).1 = .array (g.tree element) bound :=
  tree_derive hg (.array bound) h (by simp [TypeOp.parameters])

theorem tree_function (hg : g.Canonical) {result : TypeId} (h : g.Has result)
    {parameters : List TypeId} (hparameters : ∀ p ∈ parameters, g.Has p) (variadic : Bool)
    (q : Qualifiers) :
    (g.function result parameters variadic q).2.tree (g.function result parameters variadic q).1 =
      .function (g.tree result) (parameters.map g.tree) variadic q :=
  tree_derive hg (.function parameters variadic q) h hparameters

theorem tree_lvalueReference (hg : g.Canonical) {id : TypeId} (hid : g.Has id) :
    (g.lvalueReference id).2.tree (g.lvalueReference id).1 = (g.tree id).toLvalueReference := by
  have hderive : ∀ referee, g.Has referee →
      (g.derive referee .lvalueReference).2.tree (g.derive referee .lvalueReference).1 =
        .lvalueReference (g.tree referee) := fun referee h =>
    tree_derive hg .lvalueReference h (by simp [TypeOp.parameters])
  obtain ⟨l, hl, heq⟩ := exists_label? hid
  rcases l with key | ⟨operand, op⟩
  · rw [lvalueReference, heq, hderive id hid, tree_of_base hl]
    rfl
  · have hoperand : g.Has operand := hg.has_operand hl (by simp [TypeLabel.operands])
    cases op with
    | lvalueReference | rvalueReference =>
      rw [lvalueReference, heq, hderive operand hoperand, tree_of_derived hg hl]
      rfl
    | pointer _ | array _ | function _ _ _ =>
      rw [lvalueReference, heq, hderive id hid, tree_of_derived hg hl]
      rfl

theorem tree_rvalueReference (hg : g.Canonical) {id : TypeId} (hid : g.Has id) :
    (g.rvalueReference id).2.tree (g.rvalueReference id).1 = (g.tree id).toRvalueReference := by
  have hreference := isReference_tree hg hid
  rw [rvalueReference]
  split
  · -- A reference is the rvalue reference to itself.
    rename_i h
    rw [h] at hreference
    cases htree : g.tree id <;> rw [htree] at hreference <;> first | rfl | cases hreference
  · rename_i h
    rw [Bool.not_eq_true] at h
    rw [h] at hreference
    rw [tree_derive hg .rvalueReference hid (by simp [TypeOp.parameters])]
    cases htree : g.tree id <;> rw [htree] at hreference <;> first | rfl | cases hreference

/-- Below an array, the bound on the depth is still that of the element. -/
theorem tree_qualifyWithin (q : Qualifiers) (depth : Nat) {id : TypeId} (hg : g.Canonical)
    (hid : g.Has id) (hdepth : id.index < depth) :
    (qualifyWithin depth g id q).2.tree (qualifyWithin depth g id q).1 =
      (g.tree id).qualify q := by
  induction depth generalizing id with
  | zero => cases hdepth
  | succ depth ih =>
    obtain ⟨l, hl, heq⟩ := exists_label? hid
    rcases l with key | ⟨operand, op⟩
    · rw [qualifyWithin, heq, tree_of_base hl]
      exact tree_base hg _
    · have hoperand : g.Has operand := hg.has_operand hl (by simp [TypeLabel.operands])
      rw [qualifyWithin, heq, tree_of_derived hg hl]
      cases op with
      | pointer own => exact tree_pointer hg hoperand _
      | array bound =>
        have hlt : operand.index < id.index := hg.operand_lt hl _ (by simp [TypeLabel.operands])
        have helement := settled_qualifyWithin q depth hg hoperand
        have htree := ih hoperand (by omega)
        exact (tree_array helement.canonical helement.has bound).trans
          (congrArg (TypeTree.array · bound) htree)
      | lvalueReference | rvalueReference | function _ _ _ => exact tree_of_derived hg hl

theorem tree_qualify (hg : g.Canonical) {id : TypeId} (hid : g.Has id) (q : Qualifiers) :
    (g.qualify id q).2.tree (g.qualify id q).1 = (g.tree id).qualify q := by
  rw [qualify]
  split
  · rename_i hq
    rw [(Qualifiers.isNone_iff q).mp hq, TypeTree.qualify_none]
  · exact tree_qualifyWithin q _ hg hid (Nat.lt_succ_self _)

theorem tree_unqualified (hg : g.Canonical) {id : TypeId} (hid : g.Has id) :
    (g.unqualified id).2.tree (g.unqualified id).1 = (g.tree id).unqualified := by
  obtain ⟨l, hl, heq⟩ := exists_label? hid
  rcases l with key | ⟨operand, op⟩
  · rw [unqualified, heq, tree_of_base hl]
    dsimp only
    split
    · rename_i hq
      rw [tree_of_base hl, TypeTree.unqualified, ← (Qualifiers.isNone_iff _).mp hq]
      cases key <;> rfl
    · exact tree_base hg _
  · have hoperand : g.Has operand := hg.has_operand hl (by simp [TypeLabel.operands])
    rw [unqualified, heq, tree_of_derived hg hl]
    cases op with
    | pointer q =>
      dsimp only
      split
      · rename_i hq
        rw [tree_of_derived hg hl, (Qualifiers.isNone_iff q).mp hq]
        rfl
      · exact tree_pointer hg hoperand .none
    | lvalueReference | rvalueReference | array _ | function _ _ _ => exact tree_of_derived hg hl

theorem tree_adjusted (hg : g.Canonical) {id : TypeId} (hid : g.Has id) :
    (g.adjusted id).2.tree (g.adjusted id).1 = (g.tree id).adjusted := by
  have hunqualified := tree_unqualified hg hid
  obtain ⟨l, hl, heq⟩ := exists_label? hid
  rcases l with key | ⟨operand, op⟩
  · rw [adjusted, heq, hunqualified, tree_of_base hl]
    rfl
  · have hoperand : g.Has operand := hg.has_operand hl (by simp [TypeLabel.operands])
    cases op with
    | array bound =>
      rw [adjusted, heq, tree_of_derived hg hl]
      exact tree_pointer hg hoperand .none
    | function _ _ _ =>
      rw [adjusted, heq]
      refine (tree_pointer hg hid .none).trans ?_
      rw [tree_of_derived hg hl]
      rfl
    | pointer _ | lvalueReference | rvalueReference =>
      rw [adjusted, heq, hunqualified, tree_of_derived hg hl]
      rfl

end TypeGraph

end TemplateAnalysis
