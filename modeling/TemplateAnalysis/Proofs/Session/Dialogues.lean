import TemplateAnalysis.Proofs.Ast.Dependence
import TemplateAnalysis.Proofs.Session.Execution
import TemplateAnalysis.Session.Instantiation

/-!
# Resolutions as dialogues

A resolution takes the way in which instances are made as a parameter. It is a dialogue
with whoever makes them: it works on a session until it needs an instance, asks for it,
and goes on with the answer, or fails when the answer is a failure. `Dialogue` is this as
a tree, and `Converses` says that a step is one whatever instances are made: resolving a
type, binding arguments, and making one instance from others. On its own a dialogue never
reports that instances are nested too deeply, and never changes how deep they are.
-/

namespace TemplateAnalysis

open Session Analysis

variable {α β : Type}

def Session.level (s : Session) : Nat × Config := (s.depth, s.config)

/-- Other words for a failure. Instances that are nested too deeply are reported as they are. -/
structure Rewording where
  words : Diagnostic → Diagnostic
  tooDeep : ∀ d, d.isTooDeep = true → words d = d
  other : ∀ d, d.isTooDeep = false → (words d).isTooDeep = false

namespace Rewording

def none : Rewording := ⟨id, fun _ _ => rfl, fun _ h => h⟩

def trans (w w' : Rewording) : Rewording where
  words d := w'.words (w.words d)
  tooDeep d h := by rw [w.tooDeep d h, w'.tooDeep d h]
  other d h := w'.other _ (w.other d h)

def ofBase (node : Node) : Rewording where
  words := asBaseFault node
  tooDeep := by
    rintro ⟨cause, span⟩ h
    cases cause <;> first | rfl | cases h
  other := by
    rintro ⟨cause, span⟩ h
    cases cause <;> first | rfl | exact h

theorem isTooDeep_words (w : Rewording) (d : Diagnostic) :
    (w.words d).isTooDeep = d.isTooDeep := by
  cases h : d.isTooDeep with
  | true => rw [w.tooDeep d h, h]
  | false => exact w.other d h

theorem eq_of_words (w : Rewording) {d e : Diagnostic} (hd : d.isTooDeep = true)
    (h : w.words e = d) : e = d := by
  have he : e.isTooDeep = true := by rw [← w.isTooDeep_words, h, hd]
  rw [← w.tooDeep e he, h]

end Rewording

/-- Whether an instance that is made in one way at a depth, and leaves the depth, is made just
so in another way. -/
def Instantiator.MakesAs (inst inst' : Instantiator) (level : Nat × Config) : Prop :=
  ∀ {template : SymbolId} {arguments : List Node} {span : Span} {s u : Session} {id : SymbolId},
    s.level = level → exec (inst template arguments span) s = (.ok id, u) →
      u.level = level ∧ exec (inst' template arguments span) s = (.ok id, u)

/-- A question for the instance of a template, in the session in which it is asked. -/
structure Request where
  template : SymbolId
  arguments : List Node
  span : Span
  session : Session

/-- What a step does, up to how instances are made. -/
inductive Dialogue (α : Type) where
  /-- The step is over. A failure of its own does not report the depth of instances. -/
  | ends (result : Except Diagnostic α) (own : IsShallow result) (session : Session)
  /-- An instance is asked for. The answer is an instance with a session to go on in, or a
  failure, which ends the step in the words of its own. -/
  | asks (request : Request) (rewording : Rewording) (next : SymbolId → Session → Dialogue α)

namespace Dialogue

def request? : Dialogue α → Option Request
  | ends _ _ _ => none
  | asks q _ _ => some q

def play (inst : Instantiator) : Dialogue α → Except Diagnostic α × Session
  | ends result _ session => (result, session)
  | asks q rewording next =>
    match exec (inst q.template q.arguments q.span) q.session with
    | (.ok id, u) => (next id u).play inst
    | (.error d, u) => (.error (rewording.words d), u)

/-- A dialogue at a depth: what it asks, and what it leaves, is at this depth if the answers
are. -/
inductive IsAt (level : Nat × Config) : Dialogue α → Prop
  | ends {result : Except Diagnostic α} {own : IsShallow result} {session : Session}
      (at_level : session.level = level) : IsAt level (ends result own session)
  | asks {q : Request} {rewording : Rewording} {next : SymbolId → Session → Dialogue α}
      (at_level : q.session.level = level)
      (next_at : ∀ id u, u.level = level → IsAt level (next id u)) :
      IsAt level (asks q rewording next)

def bind (f : α → Session → Dialogue β) : Dialogue α → Dialogue β
  | ends (.ok a) _ session => f a session
  | ends (.error d) own session => ends (.error d) (.error (own d rfl)) session
  | asks q rewording next => asks q rewording fun id u => (next id u).bind f

def reword (w : Rewording) : Dialogue α → Dialogue α
  | ends (.ok a) own session => ends (.ok a) own session
  | ends (.error d) own session =>
    ends (.error (w.words d)) (.error (w.other d (own d rfl))) session
  | asks q rewording next => asks q (rewording.trans w) fun id u => (next id u).reword w

variable {inst : Instantiator} {level : Nat × Config}

theorem IsAt.level_request {D : Dialogue α} (hD : D.IsAt level) {q : Request}
    (hq : D.request? = some q) : q.session.level = level := by
  cases hD with
  | ends _ => cases hq
  | asks at_level _ =>
    cases hq
    exact at_level

theorem play_bind (f : α → Session → Dialogue β) (D : Dialogue α) :
    (D.bind f).play inst =
      match D.play inst with
      | (.ok a, u) => (f a u).play inst
      | (.error d, u) => (.error d, u) := by
  induction D with
  | ends result own session => cases result <;> rfl
  | asks q rewording next ih =>
    simp only [bind, play]
    rcases exec (inst q.template q.arguments q.span) q.session with ⟨_ | id, u⟩
    · rfl
    · exact ih id u

theorem IsAt.bind {f : α → Session → Dialogue β} {D : Dialogue α} (hD : D.IsAt level)
    (hf : ∀ a u, u.level = level → (f a u).IsAt level) : (D.bind f).IsAt level := by
  induction hD with
  | @ends result _ session h =>
    cases result with
    | ok a => exact hf a session h
    | error d => exact .ends h
  | asks h _ ih => exact .asks h ih

/-- What a dialogue comes to, it comes to with any way to make instances that gives the
answers which it has been given. -/
theorem IsAt.play_eq_of_makesAs {inst' : Instantiator} (hinst : inst.MakesAs inst' level)
    {D : Dialogue α} (hD : D.IsAt level) {a : α} {u : Session} (h : D.play inst = (.ok a, u)) :
    D.play inst' = (.ok a, u) := by
  induction hD with
  | ends _ => exact h
  | @asks q rewording next at_level _ ih =>
    rw [play] at h ⊢
    rcases hanswer : exec (inst q.template q.arguments q.span) q.session with ⟨d | id, v⟩
    · rw [hanswer] at h
      cases h
    · rw [hanswer] at h
      obtain ⟨hlevel, hsame⟩ := hinst at_level hanswer
      rw [hsame]
      exact ih id v hlevel h

theorem play_reword (w : Rewording) (D : Dialogue α) :
    (D.reword w).play inst = ((D.play inst).1.mapError w.words, (D.play inst).2) := by
  induction D with
  | ends result own session => cases result <;> rfl
  | asks q rewording next ih =>
    simp only [reword, play]
    rcases exec (inst q.template q.arguments q.span) q.session with ⟨_ | id, u⟩
    · rfl
    · exact ih id u

theorem IsAt.reword {D : Dialogue α} (hD : D.IsAt level) (w : Rewording) :
    (D.reword w).IsAt level := by
  induction hD with
  | @ends result _ session h =>
    cases result with
    | ok a => exact .ends h
    | error d => exact .ends h
  | asks h _ ih => exact .asks h ih

/-- A dialogue is what a step does in a session, whatever instances are made. -/
structure Represents (D : Dialogue α) (x : Instantiator → Analysis α) (s : Session) : Prop where
  isAt : D.IsAt s.level
  play_eq : ∀ inst, D.play inst = exec (x inst) s

end Dialogue

def Converses (x : Instantiator → Analysis α) : Prop :=
  ∀ s, ∃ D : Dialogue α, D.Represents x s

/-! ### Rules -/

namespace Converses

variable {x y : Instantiator → Analysis α} {f : Instantiator → α → Analysis β}

theorem own {x : Analysis α} (hlevel : ∀ s, (exec x s).2.level = s.level)
    (hshallow : ∀ s, IsShallow (exec x s).1) : Converses fun _ => x :=
  fun s => ⟨.ends _ (hshallow s) (exec x s).2, .ends (hlevel s), fun _ => rfl⟩

theorem ask (template : SymbolId) (arguments : List Node) (span : Span) :
    Converses fun inst => inst template arguments span := by
  intro s
  refine ⟨.asks ⟨template, arguments, span, s⟩ .none fun id u => .ends (.ok id) (.ok id) u,
    .asks rfl fun id u h => .ends h, fun inst => ?_⟩
  simp only [Dialogue.play]
  rcases exec (inst template arguments span) s with ⟨_ | id, u⟩
  · rfl
  · rfl

theorem bind (hx : Converses x) (hf : ∀ a, Converses fun inst => f inst a) :
    Converses fun inst => x inst >>= f inst := by
  intro s
  obtain ⟨D, hD⟩ := hx s
  choose g hg using hf
  refine ⟨D.bind g, hD.isAt.bind fun a u hu => hu ▸ (hg a u).isAt, fun inst => ?_⟩
  rw [Dialogue.play_bind, hD.play_eq, exec_bind]
  rcases exec (x inst) s with ⟨_ | a, u⟩
  · rfl
  · exact (hg a u).play_eq inst

/-- A step that succeeds does the same with any way to make instances that gives the answers
which it has been given. -/
theorem exec_eq_of_makesAs {inst inst' : Instantiator} {s u : Session} {a : α} (hx : Converses x)
    (hinst : inst.MakesAs inst' s.level) (h : exec (x inst) s = (.ok a, u)) :
    exec (x inst') s = (.ok a, u) := by
  obtain ⟨D, hD⟩ := hx s
  rw [← hD.play_eq] at h ⊢
  exact hD.isAt.play_eq_of_makesAs hinst h

theorem pure (a : α) : Converses fun _ => (Pure.pure a : Analysis α) :=
  own (fun _ => rfl) fun _ => .ok a

theorem throw {d : Diagnostic} (h : d.isTooDeep = false) :
    Converses fun _ => (MonadExcept.throw d : Analysis α) :=
  own (fun _ => rfl) fun _ => .error h

theorem ofExcept {r : Except Diagnostic α} (h : IsShallow r) :
    Converses fun _ => (MonadExcept.ofExcept r : Analysis α) := by
  apply own
  · intro s
    rw [exec_ofExcept]
  · intro s
    rw [exec_ofExcept]
    exact h

theorem get : Converses fun _ => (MonadState.get : Analysis Session) :=
  own (fun _ => rfl) fun s => .ok s

theorem symbol (id : SymbolId) : Converses fun _ => Analysis.symbol id :=
  own (fun _ => rfl) fun s => .ok (s.table.symbol id)

theorem onTypes (f : TypeGraph → α × TypeGraph) : Converses fun _ => Analysis.onTypes f :=
  own (fun _ => rfl) fun s => .ok (f s.types).1

theorem modifyTable (f : SymbolTable → SymbolTable) : Converses fun _ => Analysis.modifyTable f :=
  own (fun _ => rfl) fun _ => .ok ()

theorem changeTable (f : SymbolTable → α × SymbolTable) :
    Converses fun _ => Analysis.changeTable f :=
  own (fun _ => rfl) fun s => .ok (f s.table).1

theorem evaluate (node : Node) : Converses fun _ => Analysis.evaluate node := by
  apply own
  · intro s
    rw [exec_evaluate]
  · intro s
    rw [exec_evaluate]
    exact failsOnly_evaluate_of (fun _ _ => rfl) _ node

theorem ite {c : Prop} [Decidable c] (hx : Converses x) (hy : Converses y) :
    Converses fun inst => if c then x inst else y inst := by
  by_cases h : c
  · simp only [h, if_true]
    exact hx
  · simp only [h, if_false]
    exact hy

theorem check {c : Prop} [Decidable c] {d : Diagnostic} (hd : d.isTooDeep = false)
    (hx : Converses x) :
    Converses fun inst => if c then MonadExcept.throw d >>= fun _ : PUnit => x inst else x inst :=
  ite (bind (throw hd) fun _ => hx) hx

theorem reword (hx : Converses x) (w : Rewording) :
    Converses fun inst => tryCatch (x inst) fun d => MonadExcept.throw (w.words d) := by
  intro s
  obtain ⟨D, hD⟩ := hx s
  refine ⟨D.reword w, hD.isAt.reword w, fun inst => ?_⟩
  rw [Dialogue.play_reword, hD.play_eq, exec_tryCatch]
  rcases exec (x inst) s with ⟨_ | a, u⟩
  · rfl
  · rfl

theorem forM {f : Instantiator → β → Analysis Unit} (h : ∀ b, Converses fun inst => f inst b) :
    ∀ xs : List β, Converses fun inst => xs.forM (f inst)
  | [] => pure ()
  | b :: rest => bind (h b) fun _ => forM h rest

/-! ### Types -/

theorem typeOfSymbol (id : SymbolId) : Converses fun _ => Session.typeOfSymbol id := by
  unfold Session.typeOfSymbol
  apply bind (symbol id)
  intro target
  cases target.type with
  | some type => exact pure type
  | none => exact bind (onTypes _) fun type => bind (modifyTable _) fun _ => pure type

theorem namedType (text : String) (id : SymbolId) (span : Span) :
    Converses fun _ => Session.namedType text id span := by
  unfold Session.namedType
  apply bind (symbol id)
  intro target
  cases target.entity with
  | classType _ => exact typeOfSymbol id
  | enumeration _ => exact typeOfSymbol id
  | «typedef» type => exact pure type
  | _ => exact throw rfl

theorem keywordType (keywords : KeywordSet) (span : Span) :
    Converses fun _ => Session.keywordType keywords span := by
  unfold Session.keywordType
  apply bind get
  intro s
  cases s.types.ofKeywords keywords with
  | ok result => exact bind (own (fun _ => rfl) fun _ => .ok ()) fun _ => pure result.1
  | error fault => exact throw rfl

theorem arrayBound (expression : Node) : Converses fun _ => Session.arrayBound expression := by
  unfold Session.arrayBound
  apply bind (evaluate expression)
  intro value
  cases value.uint64? with
  | some n => exact pure n
  | none => exact throw rfl

theorem rejectType (fault? : TypeGraph → Option TypeFault) (span : Span) :
    Converses fun _ => Session.rejectType fault? span := by
  unfold Session.rejectType
  apply bind get
  intro s
  cases fault? s.types with
  | some fault => exact throw rfl
  | none => exact pure ()

mutual

theorem resolveNode : ∀ node : Node, Converses fun inst => Session.resolveNode inst node
  | .typeId specifiers declarator span => by
    simp only [Session.resolveNode]
    exact bind (resolveSpecifiers span specifiers) fun type => applyParts declarator type
  | .resolvedType type _ _ => by
    simp only [Session.resolveNode]
    exact pure type
  | .paren inner _ => by
    simp only [Session.resolveNode]
    exact resolveNode inner
  | .name text id span => by
    simp only [Session.resolveNode]
    exact namedType text id span
  | .templateId template _ arguments span => by
    simp only [Session.resolveNode]
    exact bind (ask template arguments span) fun id => typeOfSymbol id
  | .typeParameter _ _ _ | .valueParameter _ _ _ | .literal _ _ | .unary _ _ _ | .binary _ _ _ _
  | .conditional _ _ _ _ | .packExpansion _ _ | .base _ | .member _ | .staticAssert _
  | .classBody _ => by
    simp only [Session.resolveNode]
    exact throw rfl
termination_by structural node => node

theorem resolveSpecifiers (span : Span) : ∀ specifiers : Specifiers,
    Converses fun inst => Session.resolveSpecifiers inst span specifiers
  | ⟨keywords, none⟩ => by
    simp only [Session.resolveSpecifiers]
    exact keywordType keywords span
  | ⟨keywords, some named⟩ => by
    simp only [Session.resolveSpecifiers]
    exact check rfl (bind (resolveNode named) fun _ => onTypes _)
termination_by structural specifiers => specifiers

theorem applyPart : ∀ (part : DeclaratorPart) (current : TypeId),
    Converses fun inst => Session.applyPart inst current part
  | .name _ _, current => by
    simp only [Session.applyPart]
    exact pure current
  | .pointer _ _, _ | .lvalueReference _, _ | .rvalueReference _, _ | .array none _, _ => by
    simp only [Session.applyPart]
    exact bind (rejectType _ _) fun _ => onTypes _
  | .array (some expression) _, _ => by
    simp only [Session.applyPart]
    exact bind (rejectType _ _) fun _ => bind (arrayBound expression) fun _ => onTypes _
  | .function parameters _ _ _, _ => by
    simp only [Session.applyPart]
    exact bind (rejectType _ _) fun _ => bind (resolveParameters _ parameters) fun _ => onTypes _
termination_by structural part => part

theorem applyParts : ∀ (parts : List DeclaratorPart) (current : TypeId),
    Converses fun inst => Session.applyParts inst current parts
  | [], current => by
    simp only [Session.applyParts]
    exact pure current
  | part :: rest, current => by
    simp only [Session.applyParts]
    exact bind (applyPart part current) fun type => applyParts rest type
termination_by structural parts => parts

theorem resolveParameter (alone : Bool) : ∀ parameter : FunctionParameter,
    Converses fun inst => Session.resolveParameter inst alone parameter
  | ⟨specifiers, declarator, _, span⟩ => by
    simp only [Session.resolveParameter]
    apply bind (resolveSpecifiers span specifiers)
    intro base
    apply bind (applyParts declarator base)
    intro type
    apply bind get
    intro s
    apply ite
    · exact ite (pure _) (throw rfl)
    · exact bind (onTypes _) fun adjusted => pure (some adjusted)
termination_by structural parameter => parameter

theorem resolveParameters (alone : Bool) : ∀ parameters : List FunctionParameter,
    Converses fun inst => Session.resolveParameters inst alone parameters
  | [] => by
    simp only [Session.resolveParameters]
    exact pure []
  | parameter :: rest => by
    simp only [Session.resolveParameters]
    exact bind (resolveParameter alone parameter) fun _ =>
      bind (resolveParameters alone rest) fun _ => pure _
termination_by structural parameters => parameters

end

theorem resolveType (specifiers : Specifiers) (declarator : Declarator) (span : Span) :
    Converses fun inst => Session.resolveType inst specifiers declarator span :=
  bind (resolveSpecifiers span specifiers) fun type => applyParts declarator type

theorem resolveClass (node : Node) : Converses fun inst => Session.resolveClass inst node := by
  unfold Session.resolveClass
  apply bind (reword (resolveNode node) (.ofBase node))
  intro type
  apply bind (onTypes _)
  intro unqualified
  apply bind get
  intro s
  cases s.types.symbol? unqualified with
  | none => exact throw rfl
  | some id => exact ite (pure id) (throw rfl)

theorem registerBase (derived : SymbolId) (base : BaseSpecifier) :
    Converses fun inst => Session.registerBase inst derived base := by
  unfold Session.registerBase
  apply check rfl
  apply bind (resolveClass base.name)
  intro target
  apply bind get
  intro s
  exact check rfl (modifyTable _)

/-! ### Arguments -/

theorem bindType (argument : Node) : Converses fun inst => Session.bindType inst argument := by
  unfold Session.bindType
  apply bind (resolveNode argument)
  intro type
  apply bind (onTypes _)
  intro unqualified
  exact bind get fun s => pure _

theorem bindValue (valueType : Option Primitive) (argument : Node) :
    Converses fun _ => Session.bindValue valueType argument := by
  unfold Session.bindValue
  apply bind (evaluate argument)
  intro value
  cases valueType with
  | none => exact pure _
  | some type =>
    apply ofExcept
    apply FailsOnly.mapError
    intro fault
    cases fault <;> rfl

theorem bindOne (template : String) (parameter : TemplateParameter) (index : Nat)
    (argument : Node) :
    Converses fun inst => Session.bindOne inst template parameter index argument := by
  unfold Session.bindOne
  apply bind get
  intro s
  cases parameter.kind <;> cases isTypeArgument s.table argument
  case type.true => exact bindType argument
  case nonType.false => exact bindValue parameter.valueType argument
  all_goals exact throw rfl

theorem bindElements (template : String) (parameter : TemplateParameter) :
    ∀ (index : Nat) (arguments : List Node),
      Converses fun inst => Session.bindElements inst template parameter index arguments
  | _, [] => pure []
  | index, argument :: rest =>
    bind (bindOne template parameter index argument) fun _ =>
      bind (bindElements template parameter (index + 1) rest) fun _ => pure _

theorem isShallow_argument (site : BindingSite) (index : Nat) (parameter : TemplateParameter)
    (done : Arguments) : IsShallow (site.argument index parameter done) := by
  unfold BindingSite.argument
  split
  · exact .ok _
  · exact ((Node.closes_substitute _).substitute done).isShallow
  · exact .error rfl

theorem bindNext (site : BindingSite) (index : Nat) (done : Binding)
    (parameter : TemplateParameter) :
    Converses fun inst => Session.bindNext inst site index done parameter := by
  unfold Session.bindNext
  apply ite
  · exact bind (bindElements site.template parameter index _) fun _ => pure _
  · apply bind (ofExcept (isShallow_argument site index parameter done.arguments))
    intro argument
    exact bind (bindOne site.template parameter index argument) fun _ => pure _

theorem bindFrom (site : BindingSite) : ∀ (parameters : ParameterList) (index : Nat)
    (done : Binding), Converses fun inst => Session.bindFrom inst site index done parameters
  | [], _, done => pure done
  | parameter :: rest, index, done =>
    bind (bindNext site index done parameter) fun next => bindFrom site rest (index + 1) next

theorem isShallow_bindingSite (target : Symbol) (supplied : List Node) (span : Span) :
    IsShallow (bindingSite target supplied span) :=
  (failsOnly_bindingSite target supplied span).mono fun _ h => h.isTooDeep_eq

theorem bindSources (template : SymbolId) (supplied : List Node) (span : Span) :
    Converses fun inst => Session.bindSources inst template supplied span := by
  unfold Session.bindSources
  apply bind (symbol template)
  intro target
  apply bind (ofExcept (isShallow_bindingSite target supplied span))
  intro site
  exact bindFrom site site.parameters 0 ⟨[], []⟩

/-! ### Instances -/

theorem fillInstance (created : SymbolId) (pattern : ClassSpecifier) (args : Arguments) :
    Converses fun inst => Session.fillInstance inst created pattern args := by
  unfold Session.fillInstance
  apply bind (ofExcept (closes_substituteBases pattern.bases args).isShallow)
  intro bases
  apply bind (forM (fun base => registerBase created base) bases)
  intro _
  exact bind (ofExcept (closes_substituteNodes pattern.members args).isShallow) fun _ =>
    modifyTable _

theorem createInstance (template : SymbolId) (key : String) (bound : Binding)
    (body : Option ClassSpecifier) (keyword : ClassKey) (span : Span) :
    Converses fun inst => Session.createInstance inst template key bound body keyword span := by
  unfold Session.createInstance
  apply bind (symbol template)
  intro target
  apply bind (changeTable _)
  intro created
  cases body with
  | none => exact pure created
  | some pattern =>
    apply bind (fillInstance created pattern bound.arguments)
    intro _
    exact bind (modifyTable _) fun _ => pure created

theorem instanceFor (template : SymbolId) (target : Symbol) (data : TemplateData)
    (bound : Binding) (span : Span) :
    Converses fun inst => Session.instanceFor inst template target data bound span := by
  unfold Session.instanceFor
  apply bind get
  intro s
  dsimp only
  generalize instanceKey _ _ _ = key
  cases s.table.lookupIn target.enclosing key (.singleton .classType) with
  | some existing => exact pure existing
  | none =>
    cases data.entity with
    | classTemplate keyword => exact createInstance template key bound data.body? keyword span
    | _ => exact throw rfl

/-- Making one instance is a dialogue with whoever makes the instances that it needs. -/
theorem instantiateStep (template : SymbolId) (arguments : List Node) (span : Span) :
    Converses fun inst => Session.instantiateStep inst template arguments span := by
  unfold Session.instantiateStep
  apply bind (symbol template)
  intro target
  cases target.entity with
  | template data =>
    exact bind (bindSources template arguments span) fun bound =>
      instanceFor template target data bound span
  | _ => exact throw rfl

end Converses

end TemplateAnalysis
