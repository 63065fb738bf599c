import TemplateAnalysis.Proofs.TypeGraph.Operations

/-!
# Well-formed types

There is no pointer to a reference, no reference to a reference or to `void`, no array of
references, functions or `void`, and no function that returns an array or a function. A
graph forms such a type if it is asked to, but none on the way to another one: a reference
that collapses refers to what one refers to already, the adjustment of a parameter and
qualifiers apply an operator that is there, and qualifiers inside of an array leave the
shape of its element alone.
-/

namespace TemplateAnalysis

/-- Whether an operator can be applied to a type, whatever the parameters of a function. -/
def TypeOp.IsLegal (g : TypeGraph) (operand : TypeId) : TypeOp → Prop
  | pointer _ => g.isReference operand = false
  | lvalueReference | rvalueReference =>
    g.isReference operand = false ∧ g.isVoid operand = false
  | array _ =>
    g.isReference operand = false ∧ g.isFunction operand = false ∧ g.isVoid operand = false
  | function _ _ _ => g.isArray operand = false ∧ g.isFunction operand = false

def TypeGraph.IsWellFormed (g : TypeGraph) : Prop :=
  ∀ id operand op, g.label? id = some (.derived operand op) → op.IsLegal g operand

theorem TypeTree.shape_qualify (q : Qualifiers) (t : TypeTree) :
    (t.qualify q).isReference = t.isReference ∧ (t.qualify q).isFunction = t.isFunction ∧
      (t.qualify q).isVoid = t.isVoid := by
  cases t with
  | base key =>
    cases key with
    | primitive p _ => cases p <;> exact ⟨rfl, rfl, rfl⟩
    | symbol _ _ => exact ⟨rfl, rfl, rfl⟩
  | _ => exact ⟨rfl, rfl, rfl⟩

namespace TypeGraph

variable {g h : TypeGraph}

theorem Prefix.isLegal (hp : g.Prefix h) {operand : TypeId} (hoperand : g.Has operand) {op : TypeOp}
    (hop : op.IsLegal g operand) : op.IsLegal h operand := by
  cases op <;> simpa [TypeOp.IsLegal, hp.isReference_eq hoperand, hp.isVoid_eq hoperand,
    hp.isFunction_eq hoperand, hp.isArray_eq hoperand] using hop

namespace IsWellFormed

theorem empty : TypeGraph.empty.IsWellFormed := fun id _ _ hlabel => by
  rw [label?_eq_none_iff.mpr (Nat.not_lt_zero _)] at hlabel
  cases hlabel

/-- What is derived in a graph that has grown is legal if it was there, or is legal itself. -/
theorem of_kept (hwf : g.IsWellFormed) (hg : g.Canonical) (hp : g.Prefix h)
    (hnew : ∀ id operand op, h.label? id = some (.derived operand op) →
      g.label? id = some (.derived operand op) ∨ op.IsLegal h operand) : h.IsWellFormed := by
  intro id operand op hlabel
  rcases hnew id operand op hlabel with hold | hlegal
  · exact hp.isLegal (hg.has_operand hold (by simp [TypeLabel.operands])) (hwf id operand op hold)
  · exact hlegal

theorem base (hwf : g.IsWellFormed) (hg : g.Canonical) (key : BaseKey) :
    (g.base key).2.IsWellFormed := by
  obtain ⟨_, hkept, _, hadded⟩ := base_spec hg key
  refine hwf.of_kept hg hkept fun id operand op hlabel => ?_
  rcases hadded id _ hlabel with hold | hnew
  · exact .inl hold
  · cases hnew

/-- Applying an operator where it can be applied keeps a graph well-formed. -/
theorem derive (hwf : g.IsWellFormed) (hg : g.Canonical) {operand : TypeId} {op : TypeOp}
    (hoperand : g.Has operand) (hparameters : ∀ p ∈ op.parameters, g.Has p)
    (hlegal : op.IsLegal g operand) : (g.derive operand op).2.IsWellFormed := by
  obtain ⟨_, hkept, _, hadded⟩ := derive_spec hg op hoperand hparameters
  refine hwf.of_kept hg hkept fun id operand' op' hlabel => ?_
  rcases hadded id _ hlabel with hold | hnew
  · exact .inl hold
  · cases hnew
    exact .inr (hkept.isLegal hoperand hlegal)

variable {id : TypeId}

theorem pointer (hwf : g.IsWellFormed) (hg : g.Canonical) (hid : g.Has id) (q : Qualifiers)
    (hreference : g.isReference id = false) : (g.pointer id q).2.IsWellFormed :=
  hwf.derive hg hid (by simp [TypeOp.parameters]) hreference

theorem array (hwf : g.IsWellFormed) (hg : g.Canonical) (hid : g.Has id) (bound : Option UInt64)
    (hlegal : (TypeOp.array bound).IsLegal g id) : (g.array id bound).2.IsWellFormed :=
  hwf.derive hg hid (by simp [TypeOp.parameters]) hlegal

/-- The referee of a reference is no reference, and is not `void`. -/
theorem lvalueReference (hwf : g.IsWellFormed) (hg : g.Canonical) (hid : g.Has id)
    (hvoid : g.isVoid id = false) : (g.lvalueReference id).2.IsWellFormed := by
  obtain ⟨l, hl, heq⟩ := exists_label? hid
  rcases l with key | ⟨operand, op⟩
  · rw [TypeGraph.lvalueReference, heq]
    exact hwf.derive hg hid (by simp [TypeOp.parameters]) ⟨by simp [isReference, op?, heq], hvoid⟩
  · have hlegal := hwf id operand op hl
    have hoperand : g.Has operand := hg.has_operand hl (by simp [TypeLabel.operands])
    rw [TypeGraph.lvalueReference, heq]
    cases op with
    | lvalueReference | rvalueReference =>
      exact hwf.derive hg hoperand (by simp [TypeOp.parameters]) hlegal
    | pointer _ | array _ | function _ _ _ =>
      exact hwf.derive hg hid (by simp [TypeOp.parameters]) ⟨by simp [isReference, op?, heq], hvoid⟩

theorem rvalueReference (hwf : g.IsWellFormed) (hg : g.Canonical) (hid : g.Has id)
    (hvoid : g.isVoid id = false) : (g.rvalueReference id).2.IsWellFormed := by
  rw [TypeGraph.rvalueReference]
  split
  · exact hwf
  · rename_i hreference
    exact hwf.derive hg hid (by simp [TypeOp.parameters]) ⟨Bool.eq_false_iff.mpr hreference, hvoid⟩

/-- Of a type with more qualifiers there are arrays as of the type itself. -/
theorem isLegal_array_qualifyWithin (hg : g.Canonical) (hid : g.Has id) {depth : Nat}
    (hdepth : id.index < depth) (q : Qualifiers) {bound : Option UInt64}
    (hlegal : (TypeOp.array bound).IsLegal g id) :
    (TypeOp.array bound).IsLegal (qualifyWithin depth g id q).2 (qualifyWithin depth g id q).1 := by
  have hsettled := settled_qualifyWithin q depth hg hid
  have htree := tree_qualifyWithin q depth hg hid hdepth
  obtain ⟨hreference, hfunction, hvoid⟩ := (g.tree id).shape_qualify q
  obtain ⟨hreference', hfunction', hvoid'⟩ := hlegal
  refine ⟨?_, ?_, ?_⟩
  · rw [← isReference_tree hsettled.canonical hsettled.has, htree, hreference,
      isReference_tree hg hid, hreference']
  · rw [← isFunction_tree hsettled.canonical hsettled.has, htree, hfunction,
      isFunction_tree hg hid, hfunction']
  · rw [← isVoid_tree hsettled.canonical hsettled.has, htree, hvoid, isVoid_tree hg hid, hvoid']

theorem qualifyWithin (q : Qualifiers) (depth : Nat) {id : TypeId} (hwf : g.IsWellFormed)
    (hg : g.Canonical) (hid : g.Has id) (hdepth : id.index < depth) :
    (qualifyWithin depth g id q).2.IsWellFormed := by
  induction depth generalizing id with
  | zero => cases hdepth
  | succ depth ih =>
    obtain ⟨l, hl, heq⟩ := exists_label? hid
    rcases l with key | ⟨operand, op⟩
    · rw [TypeGraph.qualifyWithin, heq]
      exact hwf.base hg _
    · have hoperand : g.Has operand := hg.has_operand hl (by simp [TypeLabel.operands])
      have hlegal := hwf id operand op hl
      rw [TypeGraph.qualifyWithin, heq]
      cases op with
      | pointer own => exact hwf.pointer hg hoperand _ hlegal
      | array bound =>
        have hlt : operand.index < id.index := hg.operand_lt hl _ (by simp [TypeLabel.operands])
        have helement := settled_qualifyWithin q depth hg hoperand
        exact (ih hoperand (by omega)).array helement.canonical helement.has bound
          (isLegal_array_qualifyWithin hg hoperand (by omega) q hlegal)
      | lvalueReference | rvalueReference | function _ _ _ => exact hwf

theorem qualify (hwf : g.IsWellFormed) (hg : g.Canonical) (hid : g.Has id) (q : Qualifiers) :
    (g.qualify id q).2.IsWellFormed := by
  rw [TypeGraph.qualify]
  split
  · exact hwf
  · exact hwf.qualifyWithin q _ hg hid (Nat.lt_succ_self _)

theorem unqualified (hwf : g.IsWellFormed) (hg : g.Canonical) (hid : g.Has id) :
    (g.unqualified id).2.IsWellFormed := by
  obtain ⟨l, hl, heq⟩ := exists_label? hid
  rw [TypeGraph.unqualified, heq]
  rcases l with key | ⟨operand, op⟩
  · dsimp only
    split
    · exact hwf
    · exact hwf.base hg _
  · have hoperand : g.Has operand := hg.has_operand hl (by simp [TypeLabel.operands])
    cases op with
    | pointer q =>
      dsimp only
      split
      · exact hwf
      · exact hwf.pointer hg hoperand .none (hwf id operand _ hl)
    | lvalueReference | rvalueReference | array _ | function _ _ _ => exact hwf

theorem adjusted (hwf : g.IsWellFormed) (hg : g.Canonical) (hid : g.Has id) :
    (g.adjusted id).2.IsWellFormed := by
  have hunqualified := hwf.unqualified hg hid
  obtain ⟨l, hl, heq⟩ := exists_label? hid
  rw [TypeGraph.adjusted, heq]
  rcases l with key | ⟨operand, op⟩
  · exact hunqualified
  · have hoperand : g.Has operand := hg.has_operand hl (by simp [TypeLabel.operands])
    cases op with
    | array bound => exact hwf.pointer hg hoperand .none (hwf id operand _ hl).1
    | function _ _ _ => exact hwf.pointer hg hid .none (by simp [isReference, op?, heq])
    | pointer _ | lvalueReference | rvalueReference => exact hunqualified

end IsWellFormed

end TypeGraph

end TemplateAnalysis
