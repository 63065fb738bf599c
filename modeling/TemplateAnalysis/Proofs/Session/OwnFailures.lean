import TemplateAnalysis.Proofs.Session.DepthLimit

/-!
# Failures of a step itself

A step that asks for instances fails by itself, or because an instance that it asks for is not
made. By itself it fails as it would with any other way to make the instances that are made.
So what it can report by itself is seen from a way to make instances that reports nothing of
the kind. Resolving a type and binding one argument never report the number of arguments of a
template by themselves.
-/

namespace TemplateAnalysis

open Session Analysis

variable {α β : Type}

namespace Dialogue

variable {d : Diagnostic}

/-- With the instances that the program makes, a dialogue comes to an end of its own, which is
a failure. -/
inductive FailsItself (d : Diagnostic) : Dialogue α → Prop
  | ends {own : IsShallow (.error d : Except Diagnostic α)} {session : Session} :
    FailsItself d (.ends (.error d) own session)
  | asks {q : Request} {rewording : Rewording} {next : SymbolId → Session → Dialogue α}
    {id : SymbolId} {u : Session} (made : q.answer = (.ok id, u))
    (rest : FailsItself d (next id u)) : FailsItself d (.asks q rewording next)

/-- With the instances that the program makes, a dialogue ends with one that is not made, in
the words that it has for the failure. -/
inductive FailsInside (d : Diagnostic) : Dialogue α → Prop
  | here {q : Request} {rewording : Rewording} {next : SymbolId → Session → Dialogue α}
    {e : Diagnostic} {u : Session} (refused : q.answer = (.error e, u))
    (words : rewording.words e = d) : FailsInside d (.asks q rewording next)
  | later {q : Request} {rewording : Rewording} {next : SymbolId → Session → Dialogue α}
    {id : SymbolId} {u : Session} (made : q.answer = (.ok id, u))
    (rest : FailsInside d (next id u)) : FailsInside d (.asks q rewording next)

/-- A failure is of the one kind or of the other. -/
theorem fails_iff {D : Dialogue α} :
    (D.play instantiate).1 = .error d ↔ D.FailsItself d ∨ D.FailsInside d := by
  induction D with
  | ends result own session =>
    constructor
    · intro h
      change result = .error d at h
      subst h
      exact .inl .ends
    · rintro (h | h) <;> cases h
      rfl
  | asks q rewording next ih =>
    rw [play_asks]
    constructor
    · intro h
      rcases hanswer : q.answer with ⟨e | id, u⟩ <;> rw [hanswer] at h
      · exact .inr (.here hanswer (Except.error.inj h))
      · exact ((ih id u).mp h).imp (.asks hanswer) (.later hanswer)
    · rintro (h | h)
      · cases h with
        | asks made rest =>
          rw [made]
          exact (ih _ _).mpr (.inl rest)
      · cases h with
        | here refused words =>
          rw [refused]
          exact congrArg _ words
        | later made rest =>
          rw [made]
          exact (ih _ _).mpr (.inr rest)

/-- By itself a dialogue fails in the same way however instances are made, if those that the
program makes are made. -/
theorem FailsItself.play_eq {inst : Instantiator}
    (hinst : ∀ template arguments span s id u,
      exec (instantiate template arguments span) s = (.ok id, u) →
      exec (inst template arguments span) s = (.ok id, u))
    {D : Dialogue α} (h : D.FailsItself d) : (D.play inst).1 = .error d := by
  induction h with
  | ends => rfl
  | asks made _ ih =>
    rw [play, hinst _ _ _ _ _ _ made]
    exact ih

end Dialogue

/-- The instances that the program makes, without a word on why one is not made. -/
def Session.instantiateOrDecline : Instantiator := fun template arguments span =>
  tryCatch (instantiate template arguments span) fun _ => throw ⟨.notATemplate "", span⟩

theorem Session.exec_instantiateOrDecline {template : SymbolId} {arguments : List Node}
    {span : Span} {s u : Session} {id : SymbolId}
    (h : exec (instantiate template arguments span) s = (.ok id, u)) :
    exec (instantiateOrDecline template arguments span) s = (.ok id, u) := by
  rw [instantiateOrDecline, exec_tryCatch, h]

/-! ### What a step reports -/

def Analysis.Raises (step : Analysis α) (fault : Diagnostic → Prop) : Prop :=
  ∀ s, FailsOnly (exec step s).1 fault

namespace Analysis.Raises

variable {fault weaker : Diagnostic → Prop}

theorem of_succeeds {x : Analysis α} (h : ∀ s, Succeeds (exec x s).1) : Raises x fault := by
  intro s d hd
  obtain ⟨a, ha⟩ := h s
  rw [ha] at hd
  cases hd

theorem pure (a : α) : Raises (Pure.pure a) fault := fun _ => .ok a

theorem throw {d : Diagnostic} (h : fault d) : Raises (MonadExcept.throw d : Analysis α) fault :=
  fun _ => .error h

theorem ofExcept {r : Except Diagnostic α} (h : FailsOnly r fault) :
    Raises (MonadExcept.ofExcept r) fault := by
  intro s
  rw [exec_ofExcept]
  exact h

theorem get : Raises (MonadState.get : Analysis Session) fault := fun s => .ok s

theorem symbol (id : SymbolId) : Raises (Analysis.symbol id) fault :=
  fun s => .ok (s.table.symbol id)

theorem onTypes (f : TypeGraph → α × TypeGraph) : Raises (Analysis.onTypes f) fault :=
  fun s => .ok (f s.types).1

theorem bind {x : Analysis α} {f : α → Analysis β} (hx : Raises x fault)
    (hf : ∀ a, Raises (f a) fault) : Raises (x >>= f) fault := by
  intro s
  have hfails := hx s
  rw [exec_bind]
  rcases hr : exec x s with ⟨d | a, u⟩
  · rw [hr] at hfails
    exact .error (hfails d rfl)
  · exact hf a u

theorem mono {x : Analysis α} (hx : Raises x fault) (h : ∀ d, fault d → weaker d) :
    Raises x weaker := fun s => (hx s).mono h

end Analysis.Raises

abbrev Diagnostic.IsOfNoCount (d : Diagnostic) : Prop := d.cause.isArgumentCount = false

theorem Session.raises_instantiateOrDecline (template : SymbolId) (arguments : List Node)
    (span : Span) :
    Raises (instantiateOrDecline template arguments span) Diagnostic.IsOfNoCount := by
  intro s
  rw [instantiateOrDecline, exec_tryCatch]
  rcases exec (instantiate template arguments span) s with ⟨d | id, u⟩
  · exact .error rfl
  · exact .ok id

/-! ### Types and single arguments -/

namespace Analysis.Raises

theorem evaluate (node : Node) : Raises (Analysis.evaluate node) Diagnostic.IsOfNoCount := by
  intro s
  rw [exec_evaluate]
  exact failsOnly_evaluate_of (fun _ _ => rfl) _ node

theorem typeOfSymbol (id : SymbolId) : Raises (Session.typeOfSymbol id) Diagnostic.IsOfNoCount := by
  unfold Session.typeOfSymbol
  refine bind (symbol id) fun target => ?_
  cases target.type with
  | some type => exact pure type
  | none => exact bind (onTypes _) fun type => bind (of_succeeds fun _ => .ok _) fun _ => pure type

theorem namedType (text : String) (id : SymbolId) (span : Span) :
    Raises (Session.namedType text id span) Diagnostic.IsOfNoCount := by
  unfold Session.namedType
  refine bind (symbol id) fun target => ?_
  cases target.entity with
  | classType _ => exact typeOfSymbol id
  | enumeration _ => exact typeOfSymbol id
  | «typedef» type => exact pure type
  | _ => exact throw rfl

theorem keywordType (keywords : KeywordSet) (span : Span) :
    Raises (Session.keywordType keywords span) Diagnostic.IsOfNoCount := by
  unfold Session.keywordType
  refine bind get fun s => ?_
  cases s.types.ofKeywords keywords with
  | ok result => exact bind (of_succeeds fun _ => .ok _) fun _ => pure result.1
  | error fault => exact throw rfl

theorem arrayBound (expression : Node) :
    Raises (Session.arrayBound expression) Diagnostic.IsOfNoCount := by
  unfold Session.arrayBound
  refine bind (evaluate expression) fun value => ?_
  cases value.uint64? with
  | some n => exact pure n
  | none => exact throw rfl

theorem rejectType (fault? : TypeGraph → Option TypeFault) (span : Span) :
    Raises (Session.rejectType fault? span) Diagnostic.IsOfNoCount := by
  unfold Session.rejectType
  refine bind get fun s => ?_
  cases fault? s.types with
  | some fault => exact throw rfl
  | none => exact pure ()

variable {inst : Instantiator}
  (hinst : ∀ template arguments span, Raises (inst template arguments span) Diagnostic.IsOfNoCount)

include hinst

set_option linter.unusedSectionVars false in
mutual

theorem resolveNode : ∀ node : Node, Raises (Session.resolveNode inst node) Diagnostic.IsOfNoCount
  | .typeId specifiers declarator span => by
    simp only [Session.resolveNode]
    exact bind (resolveSpecifiers span specifiers) fun type => applyParts declarator type
  | .resolvedType type _ _ => by
    simp only [Session.resolveNode]
    exact pure type
  | .paren inner _ => by
    simp only [Session.resolveNode]
    exact resolveNode inner
  | .name text id span => by
    simp only [Session.resolveNode]
    exact namedType text id span
  | .templateId template _ arguments span => by
    simp only [Session.resolveNode]
    exact bind (hinst template arguments span) fun id => typeOfSymbol id
  | .typeParameter _ _ _ | .valueParameter _ _ _ | .literal _ _ | .unary _ _ _ | .binary _ _ _ _
  | .conditional _ _ _ _ | .packExpansion _ _ | .base _ | .member _ | .staticAssert _
  | .classBody _ => by
    simp only [Session.resolveNode]
    exact throw rfl
termination_by structural node => node

theorem resolveSpecifiers (span : Span) : ∀ specifiers : Specifiers,
    Raises (Session.resolveSpecifiers inst span specifiers) Diagnostic.IsOfNoCount
  | ⟨keywords, none⟩ => by
    simp only [Session.resolveSpecifiers]
    exact keywordType keywords span
  | ⟨keywords, some named⟩ => by
    simp only [Session.resolveSpecifiers]
    have hnamed := bind (resolveNode named) fun type =>
      onTypes (·.qualify type keywords.qualifiers)
    split
    · exact bind (throw rfl) fun _ => hnamed
    · exact hnamed
termination_by structural specifiers => specifiers

theorem applyPart : ∀ (part : DeclaratorPart) (current : TypeId),
    Raises (Session.applyPart inst current part) Diagnostic.IsOfNoCount
  | .name _ _, current => by
    simp only [Session.applyPart]
    exact pure current
  | .pointer _ _, _ | .lvalueReference _, _ | .rvalueReference _, _ | .array none _, _ => by
    simp only [Session.applyPart]
    exact bind (rejectType _ _) fun _ => onTypes _
  | .array (some expression) _, _ => by
    simp only [Session.applyPart]
    exact bind (rejectType _ _) fun _ => bind (arrayBound expression) fun _ => onTypes _
  | .function parameters _ _ _, _ => by
    simp only [Session.applyPart]
    exact bind (rejectType _ _) fun _ => bind (resolveParameters _ parameters) fun _ => onTypes _
termination_by structural part => part

theorem applyParts : ∀ (parts : List DeclaratorPart) (current : TypeId),
    Raises (Session.applyParts inst current parts) Diagnostic.IsOfNoCount
  | [], current => by
    simp only [Session.applyParts]
    exact pure current
  | part :: rest, current => by
    simp only [Session.applyParts]
    exact bind (applyPart part current) fun type => applyParts rest type
termination_by structural parts => parts

theorem resolveParameter (alone : Bool) : ∀ parameter : FunctionParameter,
    Raises (Session.resolveParameter inst alone parameter) Diagnostic.IsOfNoCount
  | ⟨specifiers, declarator, _, span⟩ => by
    simp only [Session.resolveParameter]
    refine bind (resolveSpecifiers span specifiers) fun base => ?_
    refine bind (applyParts declarator base) fun type => ?_
    refine bind get fun s => ?_
    split
    · split
      · exact pure _
      · exact throw rfl
    · exact bind (onTypes _) fun adjusted => pure (some adjusted)
termination_by structural parameter => parameter

theorem resolveParameters (alone : Bool) : ∀ parameters : List FunctionParameter,
    Raises (Session.resolveParameters inst alone parameters) Diagnostic.IsOfNoCount
  | [] => by
    simp only [Session.resolveParameters]
    exact pure []
  | parameter :: rest => by
    simp only [Session.resolveParameters]
    exact bind (resolveParameter alone parameter) fun _ =>
      bind (resolveParameters alone rest) fun _ => pure _
termination_by structural parameters => parameters

end

theorem bindType (argument : Node) :
    Raises (Session.bindType inst argument) Diagnostic.IsOfNoCount := by
  unfold Session.bindType
  refine bind (resolveNode hinst argument) fun type => ?_
  refine bind (onTypes _) fun unqualified => ?_
  exact bind get fun s => pure _

omit hinst in
theorem bindValue (valueType : Option Primitive) (argument : Node) :
    Raises (Session.bindValue valueType argument) Diagnostic.IsOfNoCount := by
  unfold Session.bindValue
  refine bind (evaluate argument) fun value => ?_
  cases valueType with
  | none => exact pure _
  | some type =>
    refine ofExcept (FailsOnly.mapError fun fault => ?_)
    cases fault <;> rfl

theorem bindOne (template : String) (parameter : TemplateParameter) (index : Nat)
    (argument : Node) :
    Raises (Session.bindOne inst template parameter index argument) Diagnostic.IsOfNoCount := by
  unfold Session.bindOne
  refine bind get fun s => ?_
  cases parameter.kind <;> cases isTypeArgument s.table argument
  case type.true => exact bindType hinst argument
  case nonType.false => exact bindValue parameter.valueType argument
  all_goals exact throw rfl

theorem bindElements (template : String) (parameter : TemplateParameter) :
    ∀ (index : Nat) (arguments : List Node),
      Raises (Session.bindElements inst template parameter index arguments) Diagnostic.IsOfNoCount
  | _, [] => pure []
  | index, argument :: rest =>
    bind (bindOne hinst template parameter index argument) fun _ =>
      bind (bindElements template parameter (index + 1) rest) fun _ => pure _

end Analysis.Raises

end TemplateAnalysis
