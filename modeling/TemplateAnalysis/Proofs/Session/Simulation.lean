import TemplateAnalysis.Proofs.Diagnostic
import TemplateAnalysis.Proofs.Session.Fitting
import TemplateAnalysis.Session.Instantiation

/-!
# Resolutions in related sessions

Resolving a type, binding arguments and making an instance read the table, the types and
the configuration of a session; they form types, and change the table in the few ways of
`SymbolTable.Builds`. So in two sessions that agree in what is read, a resolution returns
the same, and the sessions that it leaves are related as the first ones were, if the
relation outlives these changes. Taking one session for both, a relation is an invariant.

The faults of a resolution are kept beside: they are faults of the program, or what
substituting arguments that fit fails with in a tree of a template.
-/

namespace TemplateAnalysis

open Session Analysis

variable {α β : Type}

/-- The ways in which a resolution changes a table. -/
inductive SymbolTable.Builds (t : SymbolTable) : SymbolTable → Prop
  | remember (id : SymbolId) (type : TypeId) :
      Builds t (t.modifySymbol id fun s => { s with type := some type })
  | modifyClass (id : SymbolId) (f : ClassData → ClassData) : Builds t (t.modifyClass id f)
  | markDefined (id : SymbolId) : Builds t (t.markDefined id)
  | declareInstance (scope : ScopeId) (key shown : String) (keyword : ClassKey)
      (origin : InstanceOrigin) (span : Span) :
      Builds t (t.declareInstance scope key shown keyword origin span).2

/-- What substituting arguments that fit into the trees of a template fails with. -/
inductive TemplateData.Fails (data : TemplateData) (d : Diagnostic) : Prop
  /-- A default takes the arguments before it. -/
  | default {before after : ParameterList} {p : TemplateParameter} {pattern : Node}
      {args : Arguments} (parameters : data.parameters = before ++ p :: after)
      (default : p.defaultArgument = some pattern) (fits : args.FitAll before)
      (eq : pattern.substitute args = .error d)
  | bases {pattern : ClassSpecifier} {args : Arguments} (body : data.body? = some pattern)
      (fits : args.FitAll data.parameters) (eq : substituteBases args pattern.bases = .error d)
  | members {pattern : ClassSpecifier} {args : Arguments} (body : data.body? = some pattern)
      (fits : args.FitAll data.parameters) (eq : substituteNodes args pattern.members = .error d)

/-- Whether related sessions agree in what a resolution reads, and stay related where both
change alike, and whether its faults are among some. -/
structure Simulation (R : Session → Session → Prop) (faults : Diagnostic → Prop) : Prop where
  table_eq : ∀ {s u}, R s u → u.table = s.table
  types_eq : ∀ {s u}, R s u → u.types = s.types
  config_eq : ∀ {s u}, R s u → u.config = s.config
  withTypes : ∀ {s u}, R s u → ∀ types, R { s with types } { u with types }
  withTable : ∀ {s u}, R s u → ∀ {table}, s.table.Builds table →
    R { s with table } { u with table }
  external : ∀ d : Diagnostic, d.IsExternal → faults d
  substitution : ∀ {s u}, R s u → ∀ {template data},
    (s.table.symbol template).entity = .template data → ∀ {d}, data.Fails d → faults d

/-- Two steps return the same in two sessions, and leave related ones. What they fail with is
one of some faults. -/
structure Simulates (R : Session → Session → Prop) (faults : Diagnostic → Prop)
    (x y : Analysis α) (s u : Session) : Prop where
  result : (exec y u).1 = (exec x s).1
  related : R (exec x s).2 (exec y u).2
  failsOnly : FailsOnly (exec x s).1 faults

def Instantiator.Simulates (R : Session → Session → Prop) (faults : Diagnostic → Prop)
    (inst inst' : Instantiator) : Prop :=
  ∀ {s u : Session}, R s u → ∀ (template : SymbolId) (arguments : List Node) (span : Span),
    TemplateAnalysis.Simulates R faults (inst template arguments span)
      (inst' template arguments span) s u

/-- A property that outlives what a resolution does. -/
theorem Simulation.ofInvariant {P : Session → Prop} {faults : Diagnostic → Prop}
    (withTypes : ∀ {s}, P s → ∀ types, P { s with types })
    (withTable : ∀ {s}, P s → ∀ {table}, s.table.Builds table → P { s with table })
    (external : ∀ d : Diagnostic, d.IsExternal → faults d)
    (substitution : ∀ {s}, P s → ∀ {template data},
      (s.table.symbol template).entity = .template data → ∀ {d}, data.Fails d → faults d) :
    Simulation (fun s u => u = s ∧ P s) faults where
  table_eq h := by rw [h.1]
  types_eq h := by rw [h.1]
  config_eq h := by rw [h.1]
  withTypes := by
    rintro s u ⟨rfl, h⟩ types
    exact ⟨rfl, withTypes h types⟩
  withTable := by
    rintro s u ⟨rfl, h⟩ table hbuilds
    exact ⟨rfl, withTable h hbuilds⟩
  external := external
  substitution h := substitution h.2

variable {R : Session → Session → Prop} {faults : Diagnostic → Prop} {s u : Session}

/-! ### Rules -/

namespace Simulates

theorem of_exec {x y : Analysis α} {r : Except Diagnostic α} {s' u' : Session}
    (hx : exec x s = (r, s')) (hy : exec y u = (r, u')) (h : R s' u') (hr : FailsOnly r faults) :
    Simulates R faults x y s u := by
  refine ⟨?_, ?_, ?_⟩
  · rw [hx, hy]
  · rw [hx, hy]
    exact h
  · rw [hx]
    exact hr

theorem congr {x y x' y' : Analysis α} {s' u' : Session} (hx : exec x s = exec x' s')
    (hy : exec y u = exec y' u') (h : Simulates R faults x' y' s' u') :
    Simulates R faults x y s u := by
  refine ⟨?_, ?_, ?_⟩
  · rw [hx, hy]
    exact h.result
  · rw [hx, hy]
    exact h.related
  · rw [hx]
    exact h.failsOnly

theorem pure (h : R s u) (a : α) : Simulates R faults (Pure.pure a) (Pure.pure a) s u :=
  of_exec (exec_pure s a) (exec_pure u a) h (.ok a)

theorem throw (h : R s u) {d : Diagnostic} (hd : faults d) :
    Simulates R faults (MonadExcept.throw d : Analysis α) (MonadExcept.throw d) s u :=
  of_exec (exec_throw s d) (exec_throw u d) h (.error hd)

theorem bind {x y : Analysis α} {f g : α → Analysis β} (hxy : Simulates R faults x y s u)
    (hfg : ∀ a s' u', R s' u' → (exec x s).1 = .ok a → Simulates R faults (f a) (g a) s' u') :
    Simulates R faults (x >>= f) (y >>= g) s u := by
  have hresult := hxy.result
  cases hx : (exec x s).1 with
  | error d =>
    rw [hx] at hresult
    exact of_exec (exec_bind_error hx f) (exec_bind_error hresult g) hxy.related
      (.error (hxy.failsOnly d hx))
  | ok a =>
    rw [hx] at hresult
    exact congr (exec_bind_ok hx f) (exec_bind_ok hresult g) (hfg a _ _ hxy.related hx)

theorem get_bind {f g : Session → Analysis β} (h : Simulates R faults (f s) (g u) s u) :
    Simulates R faults (get >>= f) (get >>= g) s u :=
  congr (exec_get_bind s f) (exec_get_bind u g) h

theorem throw_bind (h : R s u) {d : Diagnostic} (hd : faults d) {f g : α → Analysis β} :
    Simulates R faults ((MonadExcept.throw d : Analysis α) >>= f) (MonadExcept.throw d >>= g) s u :=
  of_exec (exec_throw_bind s d f) (exec_throw_bind u d g) h (.error hd)

theorem ofExcept (h : R s u) {r : Except Diagnostic α} (hr : FailsOnly r faults) :
    Simulates R faults (MonadExcept.ofExcept r : Analysis α) (MonadExcept.ofExcept r) s u :=
  of_exec (exec_ofExcept s r) (exec_ofExcept u r) h hr

theorem mapFault {x y : Analysis α} {f : Diagnostic → Diagnostic}
    (hxy : Simulates R faults x y s u) (hf : ∀ d, faults d → faults (f d)) :
    Simulates R faults (tryCatch x fun d => MonadExcept.throw (f d))
      (tryCatch y fun d => MonadExcept.throw (f d)) s u := by
  have hx := exec_tryCatch s x fun d => MonadExcept.throw (f d)
  have hy := exec_tryCatch u y fun d => MonadExcept.throw (f d)
  obtain ⟨hresult, hrelated, hfaults⟩ := hxy
  rcases hrx : exec x s with ⟨r, s'⟩
  rcases hry : exec y u with ⟨r', u'⟩
  rw [hrx] at hx hresult hrelated hfaults
  rw [hry] at hy hresult hrelated
  obtain rfl : r' = r := hresult
  cases r' with
  | ok a => exact of_exec hx hy hrelated (.ok a)
  | error d => exact of_exec hx hy hrelated (.error (hf d (hfaults d rfl)))

theorem forM {f g : β → Analysis Unit} : ∀ {xs : List β} {s u : Session}, R s u →
    (∀ x ∈ xs, ∀ {s u}, R s u → Simulates R faults (f x) (g x) s u) →
    Simulates R faults (xs.forM f) (xs.forM g) s u
  | [], _, _, h, _ => pure h ()
  | x :: _, _, _, h, hfg => bind (hfg x List.mem_cons_self h) fun _ _ _ h _ =>
    forM h fun y hy => hfg y (List.mem_cons_of_mem x hy)

end Simulates

namespace Simulation

variable (hsim : Simulation R faults)

include hsim

theorem symbol_bind (h : R s u) {id : SymbolId} {f g : Symbol → Analysis β}
    (hfg : Simulates R faults (f (s.table.symbol id)) (g (s.table.symbol id)) s u) :
    Simulates R faults (symbol id >>= f) (symbol id >>= g) s u := by
  refine .congr (exec_symbol_bind s id f) (exec_symbol_bind u id g) ?_
  rw [hsim.table_eq h]
  exact hfg

theorem evaluate (h : R s u) (node : Node) :
    Simulates R faults (Analysis.evaluate node) (Analysis.evaluate node) s u := by
  refine .of_exec (exec_evaluate s node) (r := s.table.evaluate node) ?_ h ?_
  · rw [exec_evaluate, hsim.table_eq h]
  · exact (failsOnly_evaluate _ node).mono hsim.external

theorem onTypes (h : R s u) (f : TypeGraph → α × TypeGraph) :
    Simulates R faults (Analysis.onTypes f) (Analysis.onTypes f) s u := by
  refine .of_exec (exec_onTypes s f) ?_ (hsim.withTypes h (f s.types).2) (.ok (f s.types).1)
  rw [exec_onTypes, hsim.types_eq h]

theorem modifyTable (h : R s u) {f : SymbolTable → SymbolTable}
    (hf : s.table.Builds (f s.table)) :
    Simulates R faults (Analysis.modifyTable f) (Analysis.modifyTable f) s u := by
  refine .of_exec (exec_modifyTable s f) ?_ (hsim.withTable h hf) (.ok ())
  rw [exec_modifyTable, hsim.table_eq h]

theorem changeTable (h : R s u) {f : SymbolTable → α × SymbolTable}
    (hf : s.table.Builds (f s.table).2) :
    Simulates R faults (Analysis.changeTable f) (Analysis.changeTable f) s u := by
  refine .of_exec (exec_changeTable s f) ?_ (hsim.withTable h hf) (.ok (f s.table).1)
  rw [exec_changeTable, hsim.table_eq h]

/-! ### Types -/

theorem typeOfSymbol (h : R s u) (id : SymbolId) :
    Simulates R faults (Session.typeOfSymbol id) (Session.typeOfSymbol id) s u := by
  rw [Session.typeOfSymbol]
  refine hsim.symbol_bind h ?_
  split
  · exact .pure h _
  · exact .bind (hsim.onTypes h _) fun type s' u' h' _ =>
      .bind (hsim.modifyTable h' (.remember id type)) fun _ _ _ h _ => .pure h type

theorem namedType (h : R s u) (text : String) (id : SymbolId) (span : Span) :
    Simulates R faults (Session.namedType text id span) (Session.namedType text id span) s u := by
  rw [Session.namedType]
  refine hsim.symbol_bind h ?_
  split
  · exact hsim.typeOfSymbol h id
  · exact hsim.typeOfSymbol h id
  · exact .pure h _
  · exact .throw h (hsim.external _ (by rfl))
  · exact .throw h (hsim.external _ (by rfl))

theorem keywordType (h : R s u) (keywords : KeywordSet) (span : Span) :
    Simulates R faults (Session.keywordType keywords span) (Session.keywordType keywords span)
      s u := by
  rw [Session.keywordType]
  refine .get_bind ?_
  rw [hsim.types_eq h]
  split
  · rename_i id types _
    exact .bind (.of_exec (exec_modify s _) (exec_modify u _) (hsim.withTypes h types) (.ok ()))
      fun _ _ _ h _ => .pure h id
  · exact .throw h (hsim.external _ (by rfl))

theorem arrayBound (h : R s u) (expression : Node) :
    Simulates R faults (Session.arrayBound expression) (Session.arrayBound expression) s u := by
  rw [Session.arrayBound]
  refine .bind (hsim.evaluate h expression) fun value _ _ h _ => ?_
  split
  · exact .pure h _
  · exact .throw h (hsim.external _ (by rfl))

theorem rejectType (h : R s u) (fault? : TypeGraph → Option TypeFault) (span : Span) :
    Simulates R faults (Session.rejectType fault? span) (Session.rejectType fault? span) s u := by
  rw [Session.rejectType]
  refine .get_bind ?_
  rw [hsim.types_eq h]
  split
  · exact .throw h (hsim.external _ (by rfl))
  · exact .pure h _

omit hsim

variable {inst inst' : Instantiator}

mutual

theorem resolveNode (hsim : Simulation R faults)
    (hinst : Instantiator.Simulates R faults inst inst') :
    ∀ (node : Node) {s u : Session}, R s u →
    Simulates R faults (Session.resolveNode inst node) (Session.resolveNode inst' node) s u
  | .typeId specifiers declarator span, _, _, h => by
    rw [Session.resolveNode, Session.resolveNode]
    exact .bind (resolveSpecifiers hsim hinst span specifiers h) fun _ _ _ h _ =>
      applyParts hsim hinst _ declarator h
  | .resolvedType _ _ _, _, _, h => by
    rw [Session.resolveNode, Session.resolveNode]
    exact .pure h _
  | .paren inner _, _, _, h => by
    rw [Session.resolveNode, Session.resolveNode]
    exact resolveNode hsim hinst inner h
  | .name text id span, _, _, h => by
    rw [Session.resolveNode, Session.resolveNode]
    exact hsim.namedType h text id span
  | .templateId template _ arguments span, _, _, h => by
    rw [Session.resolveNode, Session.resolveNode]
    exact .bind (hinst h template arguments span) fun _ _ _ h _ => hsim.typeOfSymbol h _
  | .typeParameter _ _ _, _, _, h | .valueParameter _ _ _, _, _, h => by
    rw [Session.resolveNode, Session.resolveNode]
    exact .throw h (hsim.external _ (by rfl))
  | .literal _ _, _, _, h | .unary _ _ _, _, _, h | .binary _ _ _ _, _, _, h
  | .conditional _ _ _ _, _, _, h | .packExpansion _ _, _, _, h | .base _, _, _, h
  | .member _, _, _, h | .staticAssert _, _, _, h | .classBody _, _, _, h =>
    .throw h (hsim.external _ (by rfl))
termination_by structural node => node

theorem resolveSpecifiers (hsim : Simulation R faults)
    (hinst : Instantiator.Simulates R faults inst inst')
    (span : Span) : ∀ (specifiers : Specifiers) {s u : Session}, R s u →
    Simulates R faults (Session.resolveSpecifiers inst span specifiers)
      (Session.resolveSpecifiers inst' span specifiers) s u
  | ⟨keywords, none⟩, _, _, h => by
    rw [Session.resolveSpecifiers, Session.resolveSpecifiers]
    exact hsim.keywordType h keywords span
  | ⟨keywords, some named⟩, _, _, h => by
    rw [Session.resolveSpecifiers, Session.resolveSpecifiers]
    split
    · exact .throw_bind h (hsim.external _ (by rfl))
    · exact .bind (resolveNode hsim hinst named h) fun _ _ _ h _ => hsim.onTypes h _
termination_by structural specifiers => specifiers

theorem applyPart (hsim : Simulation R faults)
    (hinst : Instantiator.Simulates R faults inst inst')
    (current : TypeId) : ∀ (part : DeclaratorPart) {s u : Session}, R s u →
    Simulates R faults (Session.applyPart inst current part)
      (Session.applyPart inst' current part) s u
  | .name _ _, _, _, h => by
    rw [Session.applyPart, Session.applyPart]
    exact .pure h _
  | .pointer _ _, _, _, h | .lvalueReference _, _, _, h | .rvalueReference _, _, _, h => by
    rw [Session.applyPart, Session.applyPart]
    exact .bind (hsim.rejectType h _ _) fun _ _ _ h _ => hsim.onTypes h _
  | .array none _, _, _, h => by
    rw [Session.applyPart, Session.applyPart]
    exact .bind (hsim.rejectType h _ _) fun _ _ _ h _ => hsim.onTypes h _
  | .array (some expression) _, _, _, h => by
    rw [Session.applyPart, Session.applyPart]
    exact .bind (hsim.rejectType h _ _) fun _ _ _ h _ =>
      .bind (hsim.arrayBound h expression) fun _ _ _ h _ => hsim.onTypes h _
  | .function parameters variadic qualifiers span, _, _, h => by
    rw [Session.applyPart, Session.applyPart]
    exact .bind (hsim.rejectType h _ span) fun _ _ _ h _ =>
      .bind (resolveParameters hsim hinst _ parameters h) fun _ _ _ h _ => hsim.onTypes h _
termination_by structural part => part

theorem applyParts (hsim : Simulation R faults)
    (hinst : Instantiator.Simulates R faults inst inst')
    (current : TypeId) : ∀ (parts : List DeclaratorPart) {s u : Session}, R s u →
    Simulates R faults (Session.applyParts inst current parts)
      (Session.applyParts inst' current parts) s u
  | [], _, _, h => by
    rw [Session.applyParts, Session.applyParts]
    exact .pure h _
  | part :: rest, _, _, h => by
    rw [Session.applyParts, Session.applyParts]
    exact .bind (applyPart hsim hinst current part h) fun _ _ _ h _ =>
      applyParts hsim hinst _ rest h
termination_by structural parts => parts

theorem resolveParameter (hsim : Simulation R faults)
    (hinst : Instantiator.Simulates R faults inst inst')
    (alone : Bool) : ∀ (parameter : FunctionParameter) {s u : Session},
    R s u → Simulates R faults (Session.resolveParameter inst alone parameter)
      (Session.resolveParameter inst' alone parameter) s u
  | ⟨specifiers, declarator, _, span⟩, _, _, h => by
    rw [Session.resolveParameter, Session.resolveParameter]
    refine .bind (resolveSpecifiers hsim hinst span specifiers h) fun _ _ _ h _ =>
      .bind (applyParts hsim hinst _ declarator h) fun _ _ _ h _ => .get_bind ?_
    rw [hsim.types_eq h]
    split
    · split
      · exact .pure h _
      · exact .throw h (hsim.external _ (by rfl))
    · exact .bind (hsim.onTypes h _) fun _ _ _ h _ => .pure h _
termination_by structural parameter => parameter

theorem resolveParameters (hsim : Simulation R faults)
    (hinst : Instantiator.Simulates R faults inst inst')
    (alone : Bool) : ∀ (parameters : List FunctionParameter)
    {s u : Session}, R s u → Simulates R faults (Session.resolveParameters inst alone parameters)
      (Session.resolveParameters inst' alone parameters) s u
  | [], _, _, h => by
    rw [Session.resolveParameters, Session.resolveParameters]
    exact .pure h _
  | parameter :: rest, _, _, h => by
    rw [Session.resolveParameters, Session.resolveParameters]
    exact .bind (resolveParameter hsim hinst alone parameter h) fun _ _ _ h _ =>
      .bind (resolveParameters hsim hinst alone rest h) fun _ _ _ h _ => .pure h _
termination_by structural parameters => parameters

end

include hsim

variable (hinst : Instantiator.Simulates R faults inst inst')

include hinst

theorem resolveType (h : R s u) (specifiers : Specifiers) (declarator : Declarator)
    (span : Span) : Simulates R faults (Session.resolveType inst specifiers declarator span)
      (Session.resolveType inst' specifiers declarator span) s u := by
  rw [Session.resolveType, Session.resolveType]
  exact .bind (hsim.resolveSpecifiers hinst span specifiers h) fun _ _ _ h _ =>
    hsim.applyParts hinst _ declarator h

theorem resolveClass (h : R s u) (node : Node) :
    Simulates R faults (Session.resolveClass inst node) (Session.resolveClass inst' node) s u := by
  rw [Session.resolveClass, Session.resolveClass]
  have hfault : ∀ d, faults d → faults (asBaseFault node d) := fun d hd => by
    rw [asBaseFault]
    split
    · exact hsim.external _ rfl
    · exact hd
  refine .bind (.mapFault (hsim.resolveNode hinst node h) hfault) fun _ _ _ h _ =>
    .bind (hsim.onTypes h _) fun _ _ _ h _ => .get_bind ?_
  rw [hsim.types_eq h, hsim.table_eq h]
  split
  · exact .throw h (hsim.external _ (by rfl))
  · split
    · exact .pure h _
    · exact .throw h (hsim.external _ (by rfl))

theorem registerBase (h : R s u) (derived : SymbolId) (base : BaseSpecifier) :
    Simulates R faults (Session.registerBase inst derived base)
      (Session.registerBase inst' derived base) s u := by
  rw [Session.registerBase, Session.registerBase]
  split
  · exact .throw_bind h (hsim.external _ (by rfl))
  · refine .bind (hsim.resolveClass hinst h base.name) fun target _ _ h _ => .get_bind ?_
    rw [hsim.table_eq h, hsim.config_eq h]
    dsimp only
    split
    · exact .throw_bind h (hsim.external _ (by rfl))
    · exact hsim.modifyTable h (.modifyClass _ _)

/-! ### Arguments -/

theorem bindType (h : R s u) (argument : Node) :
    Simulates R faults (Session.bindType inst argument) (Session.bindType inst' argument) s u := by
  rw [Session.bindType, Session.bindType]
  refine .bind (hsim.resolveNode hinst argument h) fun _ _ _ h _ =>
    .bind (hsim.onTypes h _) fun _ _ _ h _ => .get_bind ?_
  rw [hsim.types_eq h, hsim.table_eq h]
  exact .pure h _

omit hinst in
theorem bindValue (h : R s u) (valueType : Option Primitive) (argument : Node) :
    Simulates R faults (Session.bindValue valueType argument)
      (Session.bindValue valueType argument) s u := by
  rw [Session.bindValue]
  refine .bind (hsim.evaluate h argument) fun value _ _ h _ => ?_
  split
  · exact .pure h _
  · exact .ofExcept h (.mapError fun fault =>
      hsim.external _ (Diagnostic.isExternal_ofConversion _ fault))

theorem bindOne (h : R s u) (template : String) (parameter : TemplateParameter) (index : Nat)
    (argument : Node) : Simulates R faults (Session.bindOne inst template parameter index argument)
      (Session.bindOne inst' template parameter index argument) s u := by
  rw [Session.bindOne, Session.bindOne]
  refine .get_bind ?_
  rw [hsim.table_eq h]
  dsimp only
  split
  · exact hsim.bindType hinst h argument
  · exact hsim.bindValue h _ argument
  · exact .throw h (hsim.external _ (by rfl))

theorem bindElements (template : String) (parameter : TemplateParameter) :
    ∀ (index : Nat) (arguments : List Node) {s u : Session}, R s u →
      Simulates R faults (Session.bindElements inst template parameter index arguments)
        (Session.bindElements inst' template parameter index arguments) s u
  | _, [], _, _, h => .pure h _
  | index, argument :: rest, _, _, h =>
    .bind (hsim.bindOne hinst h template parameter index argument) fun _ _ _ h _ =>
      .bind (bindElements template parameter (index + 1) rest h) fun _ _ _ h _ => .pure h _

theorem bindNext (h : R s u) (site : BindingSite) (index : Nat) (done : Binding)
    (parameter : TemplateParameter)
    (hfaults : ∀ pattern, parameter.defaultArgument = some pattern →
      FailsOnly (pattern.substitute done.arguments) faults) :
    Simulates R faults (Session.bindNext inst site index done parameter)
      (Session.bindNext inst' site index done parameter) s u := by
  rw [Session.bindNext, Session.bindNext]
  split
  · exact .bind (hsim.bindElements hinst _ _ _ _ h) fun _ _ _ h _ => .pure h _
  · have hargument : FailsOnly (site.argument index parameter done.arguments) faults := by
      unfold BindingSite.argument
      split
      · exact .ok _
      · rename_i hpattern
        exact hfaults _ hpattern
      · exact .error (hsim.external _ (by rfl))
    exact .bind (.ofExcept h hargument) fun _ _ _ h _ =>
      .bind (hsim.bindOne hinst h _ _ _ _) fun _ _ _ h _ => .pure h _

/-- The arguments that are bound so far fit the parameters before, so what a default fails
with is a fault of the template. -/
theorem bindFrom {data : TemplateData} (hfaults : ∀ d, data.Fails d → faults d)
    (site : BindingSite) : ∀ (index : Nat) (done : Binding) (before rest : ParameterList)
      {s u : Session}, data.parameters = before ++ rest → done.arguments.FitAll before → R s u →
      Simulates R faults (Session.bindFrom inst site index done rest)
        (Session.bindFrom inst' site index done rest) s u
  | _, done, _, [], _, _, _, _, h => .pure h done
  | index, done, before, parameter :: rest, _, _, hall, hfits, h => by
    have hdefault : ∀ pattern, parameter.defaultArgument = some pattern →
        FailsOnly (pattern.substitute done.arguments) faults :=
      fun pattern hpattern d hd => hfaults d (.default hall hpattern hfits hd)
    refine .bind (hsim.bindNext hinst h site index done parameter hdefault)
      fun next _ _ h hnext => ?_
    obtain ⟨x, hx, hfit, _⟩ := returns_bindNext site index done parameter _ next hnext
    refine bindFrom hfaults site (index + 1) next (before ++ [parameter]) rest ?_ ?_ h
    · rw [hall, List.append_assoc, List.singleton_append]
    · rw [hx]
      exact List.rel_append hfits (.cons hfit .nil)

theorem bindSources (h : R s u) (template : SymbolId) (supplied : List Node) (span : Span) :
    Simulates R faults (Session.bindSources inst template supplied span)
      (Session.bindSources inst' template supplied span) s u := by
  rw [Session.bindSources, Session.bindSources]
  refine hsim.symbol_bind h ?_
  have hsite : FailsOnly (bindingSite (s.table.symbol template) supplied span) faults :=
    (failsOnly_bindingSite _ supplied span).mono fun d hd => hsim.external d hd.isExternal
  refine .bind (.ofExcept h hsite) fun site _ _ h' hsite => ?_
  rw [exec_ofExcept] at hsite
  obtain ⟨data, hentity, hparameters⟩ := template_of_bindingSite hsite
  exact hsim.bindFrom hinst (fun d hd => hsim.substitution h hentity hd) site 0 _ [] _
    hparameters.symm .nil h'

/-! ### Instances -/

theorem fillInstance (h : R s u) (created : SymbolId) (pattern : ClassSpecifier)
    (args : Arguments) (hbases : FailsOnly (substituteBases args pattern.bases) faults)
    (hmembers : FailsOnly (substituteNodes args pattern.members) faults) :
    Simulates R faults (Session.fillInstance inst created pattern args)
      (Session.fillInstance inst' created pattern args) s u := by
  rw [Session.fillInstance, Session.fillInstance]
  exact .bind (.ofExcept h hbases) fun _ _ _ h _ =>
    .bind (.forM h fun base _ _ _ h => hsim.registerBase hinst h created base) fun _ _ _ h _ =>
      .bind (.ofExcept h hmembers) fun _ _ _ h _ => hsim.modifyTable h (.modifyClass _ _)

theorem createInstance (h : R s u) (template : SymbolId) (key : String) (bound : Binding)
    (body : Option ClassSpecifier) (keyword : ClassKey) (span : Span)
    (hbases : ∀ pattern, body = some pattern →
      FailsOnly (substituteBases bound.arguments pattern.bases) faults)
    (hmembers : ∀ pattern, body = some pattern →
      FailsOnly (substituteNodes bound.arguments pattern.members) faults) :
    Simulates R faults (Session.createInstance inst template key bound body keyword span)
      (Session.createInstance inst' template key bound body keyword span) s u := by
  rw [Session.createInstance, Session.createInstance]
  refine hsim.symbol_bind h (.bind (hsim.changeTable h (.declareInstance _ _ _ _ _ _))
    fun created _ _ h _ => ?_)
  cases body with
  | none => exact .pure h _
  | some pattern =>
    exact .bind (hsim.fillInstance hinst h _ pattern _ (hbases pattern rfl) (hmembers pattern rfl))
      fun _ _ _ h _ => .bind (hsim.modifyTable h (.markDefined _)) fun _ _ _ h _ => .pure h _

theorem instanceFor (h : R s u) (template : SymbolId) (target : Symbol) (data : TemplateData)
    (bound : Binding) (span : Span) (hfits : bound.arguments.FitAll data.parameters)
    (hfaults : ∀ d, data.Fails d → faults d) :
    Simulates R faults (Session.instanceFor inst template target data bound span)
      (Session.instanceFor inst' template target data bound span) s u := by
  rw [Session.instanceFor, Session.instanceFor]
  refine .get_bind ?_
  rw [hsim.types_eq h, hsim.table_eq h]
  dsimp only
  split
  · exact .pure h _
  · split
    · exact hsim.createInstance hinst h _ _ _ _ _ _
        (fun pattern hbody d hd => hfaults d (.bases hbody hfits hd))
        (fun pattern hbody d hd => hfaults d (.members hbody hfits hd))
    · exact .throw h (hsim.external _ (by rfl))

theorem instantiateStep :
    Instantiator.Simulates R faults (Session.instantiateStep inst)
      (Session.instantiateStep inst') := by
  intro s u h template arguments span
  rw [Session.instantiateStep, Session.instantiateStep]
  refine hsim.symbol_bind h ?_
  cases hentity : (s.table.symbol template).entity with
  | template data =>
    refine .bind (hsim.bindSources hinst h template arguments span) fun bound _ _ h' hbound => ?_
    exact hsim.instanceFor hinst h' _ _ _ _ _ (fits_of_bindSources hentity hbound) fun d hd =>
      hsim.substitution h hentity hd
  | _ => exact .throw h (hsim.external _ (by rfl))

end Simulation

end TemplateAnalysis
