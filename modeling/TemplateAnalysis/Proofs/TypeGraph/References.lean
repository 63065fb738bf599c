import TemplateAnalysis.Proofs.TypeGraph.Returned

/-!
# References collapse

A reference to a reference is formed to what that one refers to already, or is that one. So no
reference of a graph refers to a reference: forming one keeps that, and no other operation adds
a reference, also where it forms types again that are there under other qualifiers. However
many references are formed one of the other, the last one refers to what the first one does,
and is an rvalue reference only if all of them are.
-/

namespace TemplateAnalysis

def TypeOp.isReference : TypeOp → Bool
  | lvalueReference | rvalueReference => true
  | _ => false

namespace TypeTree

variable (t : TypeTree)

theorem toLvalueReference_toLvalueReference :
    t.toLvalueReference.toLvalueReference = t.toLvalueReference := by
  cases t <;> rfl

theorem toLvalueReference_toRvalueReference :
    t.toRvalueReference.toLvalueReference = t.toLvalueReference := by
  cases t <;> rfl

theorem toRvalueReference_toLvalueReference :
    t.toLvalueReference.toRvalueReference = t.toLvalueReference := by
  cases t <;> rfl

theorem toRvalueReference_toRvalueReference :
    t.toRvalueReference.toRvalueReference = t.toRvalueReference := by
  cases t <;> rfl

end TypeTree

namespace TypeGraph

variable {g h : TypeGraph} {id t x y : TypeId}

theorem isReference_of_derived {operand : TypeId} {op : TypeOp}
    (hl : g.label? id = some (.derived operand op)) : g.isReference id = op.isReference := by
  rw [isReference, op?, label_eq_of_label? hl]
  cases op <;> rfl

/-! ### Operations that add no reference -/

def KeepsReferences (g h : TypeGraph) : Prop :=
  ∀ id operand op, op.isReference = true → h.label? id = some (.derived operand op) →
    g.label? id = some (.derived operand op)

namespace KeepsReferences

theorem refl (g : TypeGraph) : g.KeepsReferences g := fun _ _ _ _ hl => hl

theorem trans {f : TypeGraph} (hfg : f.KeepsReferences g) (hgh : g.KeepsReferences h) :
    f.KeepsReferences h :=
  fun id operand op hop hl => hfg id operand op hop (hgh id operand op hop hl)

theorem base (hg : g.Canonical) (key : BaseKey) : g.KeepsReferences (g.base key).2 := by
  intro id operand op _ hl
  rcases (base_spec hg key).2.2.2 id _ hl with hold | hnew
  · exact hold
  · cases hnew

theorem derive (hg : g.Canonical) {operand : TypeId} {op : TypeOp} (hoperand : g.Has operand)
    (hparameters : ∀ p ∈ op.parameters, g.Has p) (hop : op.isReference = false) :
    g.KeepsReferences (g.derive operand op).2 := by
  intro id operand' op' hop' hl
  rcases (derive_spec hg op hoperand hparameters).2.2.2 id _ hl with hold | hnew
  · exact hold
  · cases hnew
    rw [hop] at hop'
    cases hop'

theorem pointer (hg : g.Canonical) (hid : g.Has id) (q : Qualifiers) :
    g.KeepsReferences (g.pointer id q).2 := derive hg hid (by simp [TypeOp.parameters]) rfl

theorem array (hg : g.Canonical) (hid : g.Has id) (bound : Option UInt64) :
    g.KeepsReferences (g.array id bound).2 := derive hg hid (by simp [TypeOp.parameters]) rfl

theorem qualifyWithin (q : Qualifiers) (depth : Nat) (hg : g.Canonical) (hid : g.Has id) :
    g.KeepsReferences (qualifyWithin depth g id q).2 := by
  induction depth generalizing id with
  | zero => exact refl g
  | succ depth ih =>
    obtain ⟨l, hl, heq⟩ := exists_label? hid
    rw [TypeGraph.qualifyWithin, heq]
    rcases l with key | ⟨operand, op⟩
    · exact base hg _
    · have hoperand : g.Has operand := hg.has_operand hl (by simp [TypeLabel.operands])
      cases op with
      | pointer own => exact pointer hg hoperand _
      | array bound =>
        have helement := settled_qualifyWithin q depth hg hoperand
        exact (ih hoperand).trans (array helement.canonical helement.has bound)
      | lvalueReference | rvalueReference | function _ _ _ => exact refl g

theorem qualify (hg : g.Canonical) (hid : g.Has id) (q : Qualifiers) :
    g.KeepsReferences (g.qualify id q).2 := by
  rw [TypeGraph.qualify]
  split
  · exact refl g
  · exact qualifyWithin q _ hg hid

theorem unqualified (hg : g.Canonical) (hid : g.Has id) :
    g.KeepsReferences (g.unqualified id).2 := by
  obtain ⟨l, hl, heq⟩ := exists_label? hid
  rw [TypeGraph.unqualified, heq]
  rcases l with key | ⟨operand, op⟩
  · dsimp only
    split
    · exact refl g
    · exact base hg _
  · have hoperand : g.Has operand := hg.has_operand hl (by simp [TypeLabel.operands])
    cases op with
    | pointer q =>
      dsimp only
      split
      · exact refl g
      · exact pointer hg hoperand .none
    | lvalueReference | rvalueReference | array _ | function _ _ _ => exact refl g

theorem adjusted (hg : g.Canonical) (hid : g.Has id) : g.KeepsReferences (g.adjusted id).2 := by
  have hunqualified := unqualified hg hid
  obtain ⟨l, hl, heq⟩ := exists_label? hid
  rw [TypeGraph.adjusted, heq]
  rcases l with key | ⟨operand, op⟩
  · exact hunqualified
  · have hoperand : g.Has operand := hg.has_operand hl (by simp [TypeLabel.operands])
    cases op with
    | array bound => exact pointer hg hoperand .none
    | function _ _ _ => exact pointer hg hid .none
    | pointer _ | lvalueReference | rvalueReference => exact hunqualified

end KeepsReferences

/-! ### References to what is no reference -/

def IsCollapsed (g : TypeGraph) : Prop :=
  ∀ id operand op, op.isReference = true → g.label? id = some (.derived operand op) →
    g.isReference operand = false

/-- What a type refers to if it is a reference; any other type itself. -/
def referee (g : TypeGraph) (id : TypeId) : TypeId :=
  match g.label id with
  | .derived operand .lvalueReference | .derived operand .rvalueReference => operand
  | _ => id

theorem lvalueReference_eq (g : TypeGraph) (id : TypeId) :
    g.lvalueReference id = g.derive (g.referee id) .lvalueReference := by
  rw [lvalueReference, referee]
  rcases g.label id with key | ⟨operand, op⟩
  · rfl
  · cases op <;> rfl

theorem referee_of_derived {operand : TypeId} {op : TypeOp} (hop : op.isReference = true)
    (hl : g.label? id = some (.derived operand op)) : g.referee id = operand := by
  rw [referee, label_eq_of_label? hl]
  cases op with
  | lvalueReference | rvalueReference => rfl
  | _ => cases hop

theorem referee_of_not_isReference (hid : g.isReference id = false) : g.referee id = id := by
  rw [isReference, op?] at hid
  rw [referee]
  split
  · rename_i heq
    simp [heq] at hid
  · rename_i heq
    simp [heq] at hid
  · rfl

theorem has_referee (hg : g.Canonical) (hid : g.Has id) : g.Has (g.referee id) := by
  cases hreference : g.isReference id with
  | false => exact (referee_of_not_isReference hreference).symm ▸ hid
  | true =>
    obtain ⟨l, hl, heq⟩ := exists_label? hid
    rcases l with key | ⟨operand, op⟩
    · simp [isReference, op?, heq] at hreference
    · rw [isReference_of_derived hl] at hreference
      rw [referee_of_derived hreference hl]
      exact hg.has_operand hl (by simp [TypeLabel.operands])

namespace IsCollapsed

theorem empty : TypeGraph.empty.IsCollapsed := fun id _ _ _ hl => by
  rw [label?_eq_none_iff.mpr (Nat.not_lt_zero _)] at hl
  cases hl

theorem of_keeps (hc : g.IsCollapsed) (hg : g.Canonical) (hp : g.Prefix h)
    (hkeeps : g.KeepsReferences h) : h.IsCollapsed := by
  intro id operand op hop hl
  have hold := hkeeps id operand op hop hl
  have hoperand : g.Has operand := hg.has_operand hold (by simp [TypeLabel.operands])
  exact (hp.isReference_eq hoperand).trans (hc id operand op hop hold)

theorem isReference_referee (hc : g.IsCollapsed) (hid : g.Has id) :
    g.isReference (g.referee id) = false := by
  cases hreference : g.isReference id with
  | false => rwa [referee_of_not_isReference hreference]
  | true =>
    obtain ⟨l, hl, heq⟩ := exists_label? hid
    rcases l with key | ⟨operand, op⟩
    · simp [isReference, op?, heq] at hreference
    · rw [isReference_of_derived hl] at hreference
      rw [referee_of_derived hreference hl]
      exact hc id operand op hreference hl

theorem derive (hc : g.IsCollapsed) (hg : g.Canonical) {operand : TypeId} {op : TypeOp}
    (hoperand : g.Has operand) (hparameters : ∀ p ∈ op.parameters, g.Has p)
    (hreference : g.isReference operand = false) : (g.derive operand op).2.IsCollapsed := by
  obtain ⟨_, hkept, _, hadded⟩ := derive_spec hg op hoperand hparameters
  intro id operand' op' hop' hl
  rcases hadded id _ hl with hold | hnew
  · have hoperand' : g.Has operand' := hg.has_operand hold (by simp [TypeLabel.operands])
    exact (hkept.isReference_eq hoperand').trans (hc id operand' op' hop' hold)
  · cases hnew
    exact (hkept.isReference_eq hoperand).trans hreference

end IsCollapsed

/-- Every operation keeps a graph collapsed. -/
theorem Operation.after_isCollapsed (hg : g.Canonical) (hc : g.IsCollapsed) {op : Operation}
    (hop : op.IsOn g) : (op.after g).IsCollapsed := by
  have hkept := (Operation.after_canonical hg hop).2
  have hof : g.KeepsReferences (op.after g) → (op.after g).IsCollapsed := hc.of_keeps hg hkept
  have hoperand : ∀ id, op.operands = [id] → g.Has id := fun id h => hop id (by simp [h])
  cases op with
  | base key => exact hof (.base hg key)
  | primitive type q | symbolType symbol q => exact hof (.base hg _)
  | ofKeywords keywords =>
    refine hof ?_
    rw [after, apply, TypeGraph.ofKeywords]
    cases Primitive.ofKeywords keywords with
    | error fault => exact .refl g
    | ok p => exact .base hg _
  | pointer target q => exact hof (.pointer hg (hoperand _ rfl) q)
  | array element bound => exact hof (.array hg (hoperand _ rfl) bound)
  | function result parameters variadic q =>
    exact hof (.derive hg (hop result (by simp [operands]))
      (fun p hp => hop p (List.mem_cons_of_mem _ hp)) rfl)
  | qualify id q => exact hof (.qualify hg (hoperand _ rfl) q)
  | unqualified id => exact hof (.unqualified hg (hoperand _ rfl))
  | adjusted id => exact hof (.adjusted hg (hoperand _ rfl))
  | lvalueReference id =>
    have hid := hoperand id rfl
    have hcollapsed : (g.lvalueReference id).2.IsCollapsed := by
      rw [lvalueReference_eq]
      exact hc.derive hg (has_referee hg hid) (by simp [TypeOp.parameters])
        (hc.isReference_referee hid)
    exact hcollapsed
  | rvalueReference id =>
    have hcollapsed : (g.rvalueReference id).2.IsCollapsed := by
      rw [TypeGraph.rvalueReference]
      split
      · exact hc
      · rename_i hreference
        exact hc.derive hg (hoperand id rfl) (by simp [TypeOp.parameters])
          (Bool.eq_false_iff.mpr hreference)
    exact hcollapsed

theorem Run.isCollapsed (hrun : Run empty g) : g.IsCollapsed := by
  induction hrun with
  | refl => exact .empty
  | step run op hop ih => exact Operation.after_isCollapsed (run.canonical .empty).1 ih hop

/-! ### References formed one of the other -/

namespace Returned

theorem label?_lvalueReference (h : g.Returned (.lvalueReference t) x) :
    g.label? x = some (.derived (g.referee t) .lvalueReference) := by
  have hlabel := (derive_spec h.canonical .lvalueReference (has_referee h.canonical
    (h.has_operand rfl)) (by simp [TypeOp.parameters])).2.2.1
  have happly : g.derive (g.referee t) .lvalueReference = (x, g) := by
    rw [← lvalueReference_eq]
    exact Except.ok.inj h.apply_eq
  rwa [happly] at hlabel

theorem eq_of_rvalueReference (h : g.Returned (.rvalueReference t) x)
    (ht : g.isReference t = true) : x = t := by
  have happly : g.rvalueReference t = (x, g) := Except.ok.inj h.apply_eq
  rw [rvalueReference, if_pos ht] at happly
  exact (congrArg Prod.fst happly).symm

theorem label?_rvalueReference (h : g.Returned (.rvalueReference t) x)
    (ht : g.isReference t = false) : g.label? x = some (.derived t .rvalueReference) := by
  have hlabel := (derive_spec h.canonical .rvalueReference (h.has_operand rfl)
    (by simp [TypeOp.parameters])).2.2.1
  have happly : g.derive t .rvalueReference = (x, g) := by
    rw [← Except.ok.inj h.apply_eq, rvalueReference, if_neg (Bool.eq_false_iff.mp ht)]
  rwa [happly] at hlabel

end Returned

inductive ReferenceSort where
  | lvalue
  | rvalue
deriving DecidableEq

namespace ReferenceSort

def form : ReferenceSort → TypeId → Operation
  | lvalue => .lvalueReference
  | rvalue => .rvalueReference

def op : ReferenceSort → TypeOp
  | lvalue => .lvalueReference
  | rvalue => .rvalueReference

/-- What references of two sorts, one of the other, collapse to. -/
def collapse : ReferenceSort → ReferenceSort → ReferenceSort
  | rvalue, rvalue => rvalue
  | _, _ => lvalue

theorem isOn_form (r : ReferenceSort) (ht : g.Has t) : (r.form t).IsOn g :=
  Operation.isOn_of_operands (by cases r <;> rfl) ht

@[simp] theorem isReference_op (r : ReferenceSort) : r.op.isReference = true := by
  cases r <;> rfl

/-- What references one of the other collapse to: an rvalue reference if all are. -/
theorem foldl_collapse (r : ReferenceSort) (rs : List ReferenceSort) :
    rs.foldl collapse r = if ∀ s ∈ r :: rs, s = rvalue then rvalue else lvalue := by
  induction rs generalizing r with
  | nil => cases r <;> simp
  | cons s rs ih =>
    rw [List.foldl_cons, ih]
    cases r <;> cases s <;> simp [collapse]

end ReferenceSort

theorem label?_form {r : ReferenceSort} (h : g.Returned (r.form t) x)
    (ht : g.isReference t = false) : g.label? x = some (.derived t r.op) := by
  cases r with
  | lvalue =>
    have hlabel := h.label?_lvalueReference
    rwa [referee_of_not_isReference ht] at hlabel
  | rvalue => exact h.label?_rvalueReference ht

/-- A reference formed of a reference refers to what that one refers to. -/
theorem label?_form_collapse {r s : ReferenceSort} (h : g.Returned (s.form x) y)
    (hx : g.label? x = some (.derived t r.op)) :
    g.label? y = some (.derived t (r.collapse s).op) := by
  cases s with
  | lvalue =>
    have hlabel := h.label?_lvalueReference
    rw [referee_of_derived r.isReference_op hx] at hlabel
    cases r <;> exact hlabel
  | rvalue =>
    have hsame := h.eq_of_rvalueReference ((isReference_of_derived hx).trans r.isReference_op)
    subst hsame
    cases r <;> exact hx

/-- References formed one of the other refer to what the first one refers to. -/
theorem label?_of_forms {r : ReferenceSort} {rs : List ReferenceSort}
    (hx : g.label? x = some (.derived t r.op))
    (h : g.ReturnedAlong (rs.map ReferenceSort.form) x y) :
    g.label? y = some (.derived t (rs.foldl .collapse r).op) := by
  induction rs generalizing r x with
  | nil =>
    obtain ⟨_, rfl⟩ := h
    exact hx
  | cons s rs ih =>
    obtain ⟨z, hz, hrest⟩ := h
    exact ih (label?_form_collapse hz hx) hrest

/-- How references collapse in a graph. -/
structure CollapsesReferences (g : TypeGraph) : Prop where
  /-- References of both sorts may be formed of every type. -/
  returns : ∀ {t : TypeId} (r : ReferenceSort), g.Has t → ∃ f x, Run g f ∧ f.Returned (r.form t) x
  lvalue_lvalue : ∀ {t x y : TypeId}, g.Returned (.lvalueReference t) x →
    g.Returned (.lvalueReference x) y → y = x
  rvalue_lvalue : ∀ {t x y z : TypeId}, g.Returned (.rvalueReference t) x →
    g.Returned (.lvalueReference x) y → g.Returned (.lvalueReference t) z → y = z
  lvalue_rvalue : ∀ {t x y : TypeId}, g.Returned (.lvalueReference t) x →
    g.Returned (.rvalueReference x) y → y = x
  rvalue_rvalue : ∀ {t x y : TypeId}, g.Returned (.rvalueReference t) x →
    g.Returned (.rvalueReference x) y → y = x
  /-- Of a type that is no reference, references one of the other give a reference to it. -/
  sequence : ∀ {t x : TypeId} {rs : List ReferenceSort}, rs ≠ [] → g.isReference t = false →
    g.ReturnedAlong (rs.map ReferenceSort.form) t x →
    g.label? x = some (.derived t
      (if ∀ r ∈ rs, r = .rvalue then .rvalueReference else .lvalueReference))
  /-- No reference refers to a reference. -/
  collapsed : ∀ {id operand : TypeId} {op : TypeOp}, g.label? id = some (.derived operand op) →
    op.isReference = true → g.isReference operand = false

/-- In every graph that operations build, references collapse, one by one and in sequences of
any length, and no reference refers to a reference. -/
theorem collapsesReferences (hrun : Run empty g) : g.CollapsesReferences where
  returns r ht := by
    cases r with
    | lvalue => exact exists_returned hrun (ReferenceSort.lvalue.isOn_form ht) rfl
    | rvalue => exact exists_returned hrun (ReferenceSort.rvalue.isOn_form ht) rfl
  lvalue_lvalue hx hy := hy.eq_of_tree hx <| by
    rw [hy.tree_lvalueReference, hx.tree_lvalueReference,
      TypeTree.toLvalueReference_toLvalueReference]
  rvalue_lvalue hx hy hz := hy.eq_of_tree hz <| by
    rw [hy.tree_lvalueReference, hx.tree_rvalueReference, hz.tree_lvalueReference,
      TypeTree.toLvalueReference_toRvalueReference]
  lvalue_rvalue hx hy := hy.eq_of_tree hx <| by
    rw [hy.tree_rvalueReference, hx.tree_lvalueReference,
      TypeTree.toRvalueReference_toLvalueReference]
  rvalue_rvalue hx hy := hy.eq_of_tree hx <| by
    rw [hy.tree_rvalueReference, hx.tree_rvalueReference,
      TypeTree.toRvalueReference_toRvalueReference]
  sequence := by
    intro t x rs hne ht h
    cases rs with
    | nil => exact absurd rfl hne
    | cons r rs =>
      obtain ⟨y, hy, hrest⟩ := h
      have hlabel := label?_of_forms (label?_form hy ht) hrest
      rw [ReferenceSort.foldl_collapse] at hlabel
      rw [hlabel]
      split <;> rfl
  collapsed hl hop := hrun.isCollapsed _ _ _ hop hl

/-- In a graph of `int` and its references, the rvalue reference to `int &` is `int &`. -/
theorem collapsesReferences_int :
    let int := (Operation.primitive .int .none).after empty
    let g := (Operation.rvalueReference ⟨0⟩).after ((Operation.lvalueReference ⟨0⟩).after int)
    Run empty g ∧ g.ReturnedAlong ([.lvalue, .rvalue].map ReferenceSort.form) ⟨0⟩ ⟨1⟩ ∧
      g.label? ⟨1⟩ = some (.derived ⟨0⟩ .lvalueReference) := by
  intro int g
  have hint : Run empty int := Run.refl.step _ (Operation.isOn_of_operands_nil rfl)
  have hrun : Run empty g := (hint.step _ (ReferenceSort.lvalue.isOn_form (by decide))).step _
    (ReferenceSort.rvalue.isOn_form (by decide))
  have hfirst : g.Returned (ReferenceSort.lvalue.form ⟨0⟩) ⟨1⟩ :=
    returned_of_apply hrun (ReferenceSort.isOn_form _ (by decide)) rfl
  have hsecond : g.Returned (ReferenceSort.rvalue.form ⟨1⟩) ⟨1⟩ :=
    returned_of_apply hrun (ReferenceSort.isOn_form _ (by decide)) rfl
  have halong : g.ReturnedAlong ([.lvalue, .rvalue].map ReferenceSort.form) ⟨0⟩ ⟨1⟩ :=
    ⟨⟨1⟩, hfirst, ⟨1⟩, hsecond, by decide, rfl⟩
  have hne : [ReferenceSort.lvalue, .rvalue] ≠ [] := nofun
  exact ⟨hrun, halong, (collapsesReferences hrun).sequence hne (by decide) halong⟩

end TypeGraph

end TemplateAnalysis
