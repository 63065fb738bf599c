import TemplateAnalysis.Proofs.Session.Decoding
import TemplateAnalysis.Proofs.TypeGraph.WellFormed

/-!
# An analysis forms well-formed types only

The declarators are the one place where an analysis looks at a type before it applies an
operator. What else forms types are typedefs, qualifiers, parameters and template
arguments, and these apply operators that passed there to types of the same shape.
-/

namespace TemplateAnalysis

open Session Analysis

namespace TypeGraph.IsWellFormed

variable {g : TypeGraph}

theorem isLegal_of_arrayFault? {element : TypeId} (h : arrayFault? g element = none)
    (bound : Option UInt64) : (TypeOp.array bound).IsLegal g element := by
  cases hreference : g.isReference element <;> cases hfunction : g.isFunction element <;>
    cases hvoid : g.isVoid element <;>
    simp_all [arrayFault?, TypeOp.IsLegal]

theorem isLegal_of_functionFault? {result : TypeId} (h : functionFault? g result = none)
    (parameters : List TypeId) (variadic : Bool) (q : Qualifiers) :
    (TypeOp.function parameters variadic q).IsLegal g result := by
  cases harray : g.isArray result <;> cases hfunction : g.isFunction result <;>
    simp_all [functionFault?, TypeOp.IsLegal]

/-- An operation that was checked forms types that are well-formed. -/
theorem after (h : g.IsWellFormed) (hg : g.Canonical) {op : Operation} (hop : op.IsOn g)
    (hformed : op.IsFormed g) : (op.after g).IsWellFormed := by
  have hhas : ∀ {id}, id ∈ op.operands → g.Has id := fun hid => hop _ hid
  cases op with
  | base key => exact h.base hg key
  | primitive type q => exact h.base hg _
  | symbolType symbol q => exact h.base hg _
  | ofKeywords keywords =>
    rw [Operation.after, Operation.apply, ofKeywords]
    cases Primitive.ofKeywords keywords with
    | error fault => exact h
    | ok type => exact h.base hg _
  | pointer target q =>
    exact h.pointer hg (hhas (by simp [Operation.operands])) q
      (by simpa [Operation.IsFormed, pointerFault?] using hformed)
  | lvalueReference id =>
    exact h.lvalueReference hg (hhas (by simp [Operation.operands]))
      (by simpa [Operation.IsFormed, referenceFault?] using hformed)
  | rvalueReference id =>
    exact h.rvalueReference hg (hhas (by simp [Operation.operands]))
      (by simpa [Operation.IsFormed, referenceFault?] using hformed)
  | array element bound =>
    exact h.array hg (hhas (by simp [Operation.operands])) bound
      (isLegal_of_arrayFault? hformed bound)
  | function result parameters variadic q =>
    exact h.derive hg (hhas (by simp [Operation.operands]))
      (fun p hp => hhas (List.mem_cons_of_mem _ hp))
      (isLegal_of_functionFault? hformed.1 parameters variadic q)
  | qualify id q => exact h.qualify hg (hhas (by simp [Operation.operands])) q
  | unqualified id => exact h.unqualified hg (hhas (by simp [Operation.operands]))
  | adjusted id => exact h.adjusted hg (hhas (by simp [Operation.operands]))

end TypeGraph.IsWellFormed

namespace Session

variable {s u : Session}

theorem Change.isWellFormed {role : Role} (hs : s.Closed) (h : s.Change role u)
    (hwf : s.types.IsWellFormed) : u.types.IsWellFormed := by
  cases h with
  | form op isOn known formed => exact hwf.after hs.types isOn formed
  | _ => exact hwf

theorem CheckedRun.isWellFormed (h : s.CheckedRun u) (hs : s.Closed)
    (hwf : s.types.IsWellFormed) : u.types.IsWellFormed :=
  (h.changes hs).invariant (fun s => s.types.IsWellFormed) hs
    (fun _ _ hv hchange h => hchange.isWellFormed hv h) hwf

/-- In every session that a run without unchecked types leads to, also where steps of it have
failed, an operator is applied only to types that it can be applied to: no pointer or
reference to a reference, no reference to `void`, no array of references, functions or
`void`, and no function that returns an array or a function. The parameters of a function
are neither `void` nor arrays nor functions, and have no qualifiers of their own. -/
theorem isLegal_of_checkedRun {config : Config} (hs : (start config).CheckedRun s)
    {id operand : TypeId} {op : TypeOp} (hlabel : s.types.label? id = some (.derived operand op)) :
    op.IsLegal s.types operand ∧
      ∀ p ∈ op.parameters, ∃ l, s.types.label? p = some l ∧ l.IsParameter := by
  refine ⟨hs.isWellFormed (.start config) .empty id operand op hlabel, fun p hp => ?_⟩
  have hparameters := hs.hasParameters (.start config) .empty
  cases op with
  | function ps variadic q => exact hparameters id operand ps variadic q hlabel p hp
  | _ => cases hp

/-- The function `void (int[])` and then the pointer to `int&`, which fails and leaves the
reference: its referee is `int`, and the function has a pointer for its parameter. -/
theorem isLegal_of_checkedRun_reference :
    let function := Operation.resolveType ⟨.singleton .void, none⟩
      [.function [⟨⟨.singleton .int, none⟩, [.array none .synthesized], none, .synthesized⟩] false
        .none .synthesized] .synthesized
    let pointer := Operation.resolveType ⟨.singleton .int, none⟩
      [.lvalueReference .synthesized, .pointer .none .synthesized] .synthesized
    let s := pointer.after (function.after (start .standard))
    (exec pointer.perform (function.after (start .standard))).1.toOption = none ∧
      s.types.label? ⟨5⟩ = some (.derived ⟨1⟩ .lvalueReference) ∧
      TypeOp.lvalueReference.IsLegal s.types ⟨1⟩ ∧
      ∃ l, s.types.label? ⟨3⟩ = some l ∧ l.IsParameter := by
  intro function pointer s
  have hrun : (start .standard).CheckedRun s :=
    (CheckedRun.refl.step function .of_handles_nil id).step pointer .of_handles_nil id
  have hreference : s.types.label? ⟨5⟩ = some (.derived ⟨1⟩ .lvalueReference) := by
    decide +kernel
  have hfunction : s.types.label? ⟨4⟩ = some (.derived ⟨0⟩ (.function [⟨3⟩] false .none)) := by
    decide +kernel
  exact ⟨by decide +kernel, hreference, (isLegal_of_checkedRun hrun hreference).1,
    (isLegal_of_checkedRun hrun hfunction).2 ⟨3⟩ (by simp [TypeOp.parameters])⟩

end Session

end TemplateAnalysis
