import TemplateAnalysis.Proofs.Outcome
import TemplateAnalysis.Session.Binding

/-!
# Faults of the analysed program

A diagnostic reports a misuse of the analysis, or a fault of the program that is
analysed. Evaluating an expression, converting its value, comparing parameter lists, and
taking the arguments of a template report faults of the program only.
-/

namespace TemplateAnalysis

def Diagnostic.misuse? (d : Diagnostic) : Option Misuse :=
  match d.cause with
  | .internal misuse => some misuse
  | _ => none

/-- Whether a diagnostic reports no misuse. -/
def Diagnostic.IsExternal (d : Diagnostic) : Prop := d.misuse? = none

namespace Diagnostic

theorem isExternal_ofConversion (span : Span) (fault : ConversionFault) :
    (ofConversion span fault).IsExternal := by
  cases fault <;> rfl

end Diagnostic

/-! ### Expressions -/

section

variable {faults : Diagnostic → Prop} (h : ∀ span fault, faults (.notConstant span fault))

include h

theorem failsOnly_notConstantAt {α : Type} (span : Span) (result : Except ConstantFault α) :
    FailsOnly (notConstantAt span result) faults :=
  .mapError fun fault => h span fault

theorem failsOnly_evaluate_of (valueOf : SymbolId → NamedValue) (node : Node) :
    FailsOnly (node.evaluate valueOf) faults := by
  fun_induction Node.evaluate valueOf node with
  | case1 value => exact .ok value
  | case2 inner span ih => exact ih
  | case3 text symbol span => exact failsOnly_notConstantAt h span _
  | case4 text index span => exact .error (h _ _)
  | case5 op operand span ih => exact ih.bind fun _ _ => failsOnly_notConstantAt h span _
  | case6 left right span ihl ihr =>
    refine ihl.bind fun a _ => ?_
    split
    · exact ihr.bind fun _ _ => .pure _
    · exact .pure _
  | case7 left right span ihl ihr =>
    refine ihl.bind fun a _ => ?_
    split
    · exact .pure _
    · exact ihr.bind fun _ _ => .pure _
  | case8 op left right span _ _ ihl ihr =>
    exact ihl.bind fun _ _ => ihr.bind fun _ _ => failsOnly_notConstantAt h span _
  | case9 condition whenTrue whenFalse span ihc iht ihf =>
    refine ihc.bind fun a _ => ?_
    split
    · exact iht
    · exact ihf
  | case10 node => exact .error (h _ _)

end

/-- Evaluating an expression fails with a fault of the program. -/
theorem failsOnly_evaluate (valueOf : SymbolId → NamedValue) (node : Node) :
    FailsOnly (node.evaluate valueOf) Diagnostic.IsExternal :=
  failsOnly_evaluate_of (fun _ _ => rfl) valueOf node

theorem failsOnly_convert (value : Constant) (type : Primitive) (span : Span) :
    FailsOnly ((value.convert type).mapError (Diagnostic.ofConversion span))
      Diagnostic.IsExternal :=
  .mapError fun fault => Diagnostic.isExternal_ofConversion span fault

/-! ### Parameter lists -/

namespace ParameterList

theorem failsOnly_validate : ∀ ps : ParameterList, FailsOnly ps.validate Diagnostic.IsExternal
  | [] => .ok ()
  | p :: rest => by
    rw [validate]
    split
    · exact .error rfl
    · split
      · exact .error rfl
      · exact failsOnly_validate rest

theorem failsOnly_checkTrailingDefaults (ps : ParameterList) (template : String) (span : Span) :
    FailsOnly (ps.checkTrailingDefaults template span) Diagnostic.IsExternal := by
  unfold checkTrailingDefaults
  split
  · exact .error rfl
  · exact .ok ()

theorem failsOnly_checkAgreement (template : String) : ∀ (index : Nat) (ps qs : ParameterList),
    FailsOnly (checkAgreement template index ps qs) Diagnostic.IsExternal
  | index, p :: ps, q :: qs => by
    rw [checkAgreement]
    split
    · exact .error rfl
    · split
      · exact .error rfl
      · exact failsOnly_checkAgreement template (index + 1) ps qs
  | _, [], _ | _, _ :: _, [] => .ok ()

theorem failsOnly_merge (ps qs : ParameterList) (template : String) (span : Span) :
    FailsOnly (ps.merge qs template span) Diagnostic.IsExternal := by
  unfold merge
  split
  · exact .error rfl
  · exact (failsOnly_checkAgreement template 0 ps qs).bind fun _ _ => .pure _

end ParameterList

/-! ### Arguments -/

/-- Whether a diagnostic reports arguments that cannot be taken: for no template, too many of
them, a missing one, or packs that do not go together. -/
def Diagnostic.IsOfArguments (d : Diagnostic) : Prop :=
  match d.cause with
  | .notATemplate _ | .tooManyArguments _ _ _ | .parameterIndexOutOfRange _ _
  | .invalidPack _ => True
  | _ => False

theorem Diagnostic.IsOfArguments.isExternal {d : Diagnostic} (h : d.IsOfArguments) :
    d.IsExternal := by
  rcases d with ⟨cause, span⟩
  cases cause <;> first | rfl | exact h.elim

/-- Whether a diagnostic reports why arguments cannot be substituted: one is missing, a pack is
misused, or the tree or an argument is of a wrong kind. -/
def Diagnostic.IsOfSubstitution (d : Diagnostic) : Prop :=
  match d.cause with
  | .parameterIndexOutOfRange _ _ | .invalidPack _ | .internal _ => True
  | _ => False

section

variable {faults : Diagnostic → Prop}
  (hindex : ∀ index bound span, faults ⟨.parameterIndexOutOfRange index bound, span⟩)
  (hpack : ∀ span fault, faults (.invalidPack span fault))

include hindex

theorem failsOnly_lookup_of (args : Arguments) (index : Nat) (span : Span) :
    FailsOnly (args.lookup index span) faults := by
  unfold Arguments.lookup
  split
  · exact .ok _
  · exact .error (hindex index args.length span)

include hpack

theorem failsOnly_addPack_of (args : Arguments) (span : Span) (selection : PackSelection)
    (index : Nat) : FailsOnly (selection.add args span index) faults := by
  unfold PackSelection.add
  apply (failsOnly_lookup_of hindex args index span).bind
  intro argument _
  split
  · exact .ok _
  · split
    · split
      · exact .ok _
      · exact .error (hpack _ _)
    · exact .ok _

theorem failsOnly_repetitions_of (args : Arguments) (uses : List Nat) (span : Span) :
    FailsOnly (args.repetitions uses span) faults := by
  unfold Arguments.repetitions
  refine (FailsOnly.foldlM fun selection index =>
    failsOnly_addPack_of hindex hpack args span selection index).bind ?_
  intro selection _
  split
  · exact .error (hpack _ _)
  · exact .ok _

end

theorem failsOnly_lookup (args : Arguments) (index : Nat) (span : Span) :
    FailsOnly (args.lookup index span) Diagnostic.IsOfArguments :=
  failsOnly_lookup_of (fun _ _ _ => trivial) args index span

theorem failsOnly_repetitions (args : Arguments) (uses : List Nat) (span : Span) :
    FailsOnly (args.repetitions uses span) Diagnostic.IsOfArguments :=
  failsOnly_repetitions_of (fun _ _ _ => trivial) (fun _ _ => trivial) args uses span

theorem failsOnly_bindingSite (target : Symbol) (supplied : List Node) (span : Span) :
    FailsOnly (Session.bindingSite target supplied span) Diagnostic.IsOfArguments := by
  unfold Session.bindingSite
  split
  · split
    · exact .error trivial
    · split
      · exact .error trivial
      · exact .ok _
  · exact .error trivial

end TemplateAnalysis
