import TemplateAnalysis.Proofs.Ast.ClosedTrees

/-!
# Trees without parameters

Substitution leaves no parameter behind: whatever the arguments are, a tree that it gives
mentions none. Where it fails, something is wrong with the tree or with the arguments. It
makes no instances, so it never reports that these are nested too deeply.
-/

namespace TemplateAnalysis

def Diagnostic.isTooDeep (d : Diagnostic) : Bool :=
  match d.cause with
  | .depthExceeded _ _ => true
  | _ => false

/-- A computation does not fail because instances are nested too deeply. -/
abbrev IsShallow {α : Type} (x : Except Diagnostic α) : Prop :=
  FailsOnly x fun d => d.isTooDeep = false

variable {args : Arguments}

theorem Diagnostic.IsOfArguments.isTooDeep_eq {d : Diagnostic} (h : d.IsOfArguments) :
    d.isTooDeep = false := by
  rcases d with ⟨cause, span⟩
  cases cause <;> first | rfl | exact h.elim

theorem Diagnostic.IsOfSubstitution.isTooDeep_eq {d : Diagnostic} (h : d.IsOfSubstitution) :
    d.isTooDeep = false := by
  rcases d with ⟨cause, span⟩
  cases cause <;> first | rfl | exact h.elim

theorem Closes.isShallow {α : Type} {nodes : α → List Node} {x : Except Diagnostic α}
    (h : Closes nodes x) : IsShallow x :=
  h.failsOnly.mono fun _ hd => hd.isTooDeep_eq

/-- A closed tree mentions no parameter: the name of one would be open. -/
theorem Node.IsClosed.parameterUses_eq_nil {node : Node} (h : node.IsClosed) :
    node.parameterUses = [] := by
  apply List.eq_nil_iff_forall_not_mem.mpr
  intro index hindex
  obtain ⟨name, hname, kind, hparameter⟩ := Node.mem_parameterUses.mp hindex
  have hopen := h name hname
  cases name <;> cases hparameter <;> cases hopen

/-- What substitution gives does not depend on template parameters. -/
theorem isDependent_substitute {node r : Node} (h : node.substitute args = .ok r) :
    r.isDependent = false := by
  have hclosed : r.IsClosed := (node.closes_substitute.substitute args).yields r h
  simp [Node.isDependent, hclosed.parameterUses_eq_nil]

end TemplateAnalysis
