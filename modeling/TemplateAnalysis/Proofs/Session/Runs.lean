import TemplateAnalysis.Proofs.Session.Classes
import TemplateAnalysis.Proofs.Session.Enums

/-!
# Runs of a session

`Operation` lists what can be asked of a session, and a `Run` is a sequence of
operations, each with handles of the session that it meets, whether they succeed or
fail. Everything a closed session has stays over a run, so what an instantiation has
returned it returns again at any later point, and then leaves the session alone.
-/

namespace TemplateAnalysis.Session

open Analysis

/-- What can be asked of a session. -/
inductive Operation where
  /-- A type is formed, without the checks of an analysis. -/
  | graph (op : TypeGraph.Operation)
  | enterScope (scope : ScopeId)
  | leaveScope (span : Span)
  | openNamespace (name : String) (span : Span)
  | closeNamespace (span : Span)
  | beginTemplate (parameters : ParameterList) (span : Span)
  | endTemplate (span : Span)
  | declareClass (name : String) (key : ClassKey) (span : Span)
  | defineClass (id : SymbolId) (specifier : ClassSpecifier)
  | declareEnum (name : String) (isScoped : Bool) (underlying : Option TypeId) (span : Span)
  | defineEnum (id : SymbolId) (enumerators : List EnumeratorSpecifier) (span : Span)
  | declareTypedef (name : String) (specifiers : Specifiers) (declarator : Declarator)
      (span : Span)
  | declareFunction (name : String) (specifiers : Specifiers) (declarator : Declarator)
      (span : Span)
  | declareObject (name : String) (specifiers : Specifiers) (declarator : Declarator)
      (initializer : Option Node) (span : Span)
  | declareSimple (specifiers : Specifiers) (declarator : Declarator)
      (initializer : Option Node) (span : Span)
  | checkStaticAssert (assertion : StaticAssert)
  | typeOfSymbol (id : SymbolId)
  | resolveType (specifiers : Specifiers) (declarator : Declarator) (span : Span)
  | resolveNode (node : Node)
  | resolveClass (node : Node)
  | instantiate (template : SymbolId) (arguments : List Node) (span : Span)
  | bindArguments (template : SymbolId) (arguments : List Node) (span : Span)

namespace Operation

def perform : Operation → Analysis Unit
  | graph op => modify fun s => { s with types := op.after s.types }
  | enterScope scope => Session.enterScope scope
  | leaveScope span => do let _ ← Session.leaveScope span
  | openNamespace name span => do let _ ← Session.openNamespace name span
  | closeNamespace span => Session.closeNamespace span
  | beginTemplate parameters span => do let _ ← Session.beginTemplate parameters span
  | endTemplate span => do let _ ← Session.endTemplate span
  | declareClass name key span => do let _ ← Session.declareClass name key span
  | defineClass id specifier => Session.defineClass id specifier
  | declareEnum name isScoped underlying span => do
    let _ ← Session.declareEnum name isScoped underlying span
  | defineEnum id enumerators span => Session.defineEnum id enumerators span
  | declareTypedef name specifiers declarator span => do
    let _ ← Session.declareTypedef name specifiers declarator span
  | declareFunction name specifiers declarator span => do
    let _ ← Session.declareFunction name specifiers declarator span
  | declareObject name specifiers declarator initializer span => do
    let _ ← Session.declareObject name specifiers declarator initializer span
  | declareSimple specifiers declarator initializer span => do
    let _ ← Session.declareSimple specifiers declarator initializer span
  | checkStaticAssert assertion => Session.checkStaticAssert assertion
  | typeOfSymbol id => do let _ ← Session.typeOfSymbol id
  | resolveType specifiers declarator span => do
    let _ ← Session.resolveType Session.instantiate specifiers declarator span
  | resolveNode node => do let _ ← Session.resolveNode Session.instantiate node
  | resolveClass node => do let _ ← Session.resolveClass Session.instantiate node
  | instantiate template arguments span => do
    let _ ← Session.instantiate template arguments span
  | bindArguments template arguments span => do
    let _ ← Session.bindArguments template arguments span

def after (op : Operation) (s : Session) : Session := (exec op.perform s).2

def handles : Operation → List Handle
  | graph op => op.operands.map .type ++ op.symbols.map .symbol
  | beginTemplate parameters _ => parameters.flatMap (·.handles)
  | defineClass id specifier => .symbol id :: specifier.handles
  | declareEnum _ _ underlying _ => (underlying.map Handle.type).toList
  | defineEnum id enumerators _ =>
    .symbol id :: enumerators.flatMap fun e => handlesOfNode? e.value
  | declareTypedef _ specifiers declarator _ | declareFunction _ specifiers declarator _
  | resolveType specifiers declarator _ => specifiers.handles ++ handlesOfParts declarator
  | declareObject _ specifiers declarator initializer _
  | declareSimple specifiers declarator initializer _ =>
    specifiers.handles ++ handlesOfParts declarator ++ handlesOfNode? initializer
  | checkStaticAssert assertion => assertion.handles
  | typeOfSymbol id => [.symbol id]
  | resolveNode node | resolveClass node => node.handles
  | instantiate template arguments _ | bindArguments template arguments _ =>
    .symbol template :: handlesOfNodes arguments
  | enterScope _ | leaveScope _ | openNamespace _ _ | closeNamespace _ | endTemplate _
  | declareClass _ _ _ => []

/-- Whether an operation is given handles of a session. -/
structure IsOn (op : Operation) (s : Session) : Prop where
  known : AllKnown s.Known op.handles
  scope_has : ∀ scope, op = .enterScope scope → s.table.HasScope scope

theorem IsOn.of_known {op : Operation} {s : Session} (h : AllKnown s.Known op.handles)
    (hscope : ∀ scope, op ≠ .enterScope scope := by nofun) : op.IsOn s :=
  ⟨h, fun scope heq => absurd heq (hscope scope)⟩

/-- An operation without handles may be called in any session. -/
theorem IsOn.of_handles_nil {op : Operation} {s : Session} (h : op.handles = [] := by rfl)
    (hscope : ∀ scope, op ≠ .enterScope scope := by nofun) : op.IsOn s :=
  .of_known (h ▸ AllKnown.nil) hscope

theorem IsOn.of_symbol {op : Operation} {s : Session} {id : SymbolId} (hid : s.table.HasSymbol id)
    (h : op.handles = [.symbol id] := by rfl)
    (hscope : ∀ scope, op ≠ .enterScope scope := by nofun) : op.IsOn s :=
  .of_known (h ▸ allKnown_cons_symbol hid AllKnown.nil) hscope

/-- Whether an operation forms types without the checks of an analysis. -/
def IsUnchecked : Operation → Prop
  | graph _ => True
  | _ => False

end Operation

/-- A sequence of operations, each with handles of the session that it meets. -/
inductive Run (s : Session) : Session → Prop
  | refl : Run s s
  | step {u : Session} (run : Run s u) (op : Operation) (isOn : op.IsOn u) : Run s (op.after u)

/-- A run that forms no types without the checks of an analysis. -/
inductive CheckedRun (s : Session) : Session → Prop
  | refl : CheckedRun s s
  | step {u : Session} (run : CheckedRun s u) (op : Operation) (isOn : op.IsOn u)
    (checked : ¬ op.IsUnchecked) : CheckedRun s (op.after u)

variable {s u : Session}

theorem Run.trans {v : Session} (h : s.Run u) (h' : u.Run v) : s.Run v := by
  induction h' with
  | refl => exact h
  | step _ op isOn ih => exact ih.step op isOn

theorem leads_discard {α : Type} {post : α → Session → Prop} {x : Analysis α} (hs : s.Closed)
    (h : Leads s x post) : Leads s (do let _ ← x) fun _ _ => True :=
  Leads.bind hs h fun _ _ _ _ _ => Leads.pure trivial

/-- What an operation does that forms no unchecked types is a sequence of changes. -/
theorem Operation.leads {op : Operation} (hop : ¬ op.IsUnchecked) (hs : s.Closed)
    (h : op.IsOn s) : Leads s op.perform fun _ _ => True := by
  have hknown := h.known
  cases op with
  | graph op => exact absurd trivial hop
  | enterScope scope =>
    exact (leads_enterScope (h.scope_has scope rfl)).mono fun _ _ _ => trivial
  | leaveScope span => exact leads_discard hs (leads_leaveScope hs span)
  | openNamespace name span => exact leads_discard hs (leads_openNamespace hs name span)
  | closeNamespace span => exact leads_closeNamespace hs span
  | beginTemplate parameters span => exact leads_discard hs (leads_beginTemplate hknown span)
  | endTemplate span => exact leads_discard hs (leads_endTemplate hs span)
  | declareClass name key span => exact leads_discard hs (leads_declareClass hs name key span)
  | defineClass id specifier => exact leads_defineClass specifier hs hknown.head hknown.tail
  | declareEnum name isScoped underlying span =>
    refine leads_discard hs (leads_declareEnum hs name isScoped (fun type htype => ?_) span)
    exact hknown (.type type) (by simp [handles, htype])
  | defineEnum id enumerators span => exact leads_defineEnum hs hknown.head enumerators span
  | declareTypedef name specifiers declarator span =>
    exact leads_discard hs (leads_declareTypedef hs name hknown.left hknown.right span)
  | declareFunction name specifiers declarator span =>
    exact leads_discard hs (leads_declareFunction hs name hknown.left hknown.right span)
  | declareObject name specifiers declarator initializer span =>
    exact leads_discard hs
      (leads_declareObject hs name hknown.left.left hknown.left.right initializer span)
  | declareSimple specifiers declarator initializer span =>
    exact leads_discard hs
      (leads_declareSimple hs hknown.left.left hknown.left.right initializer span)
  | checkStaticAssert assertion => exact leads_checkStaticAssert assertion
  | typeOfSymbol id => exact leads_discard hs (steady_typeOfSymbol hs hknown.head).toLeads
  | resolveType specifiers declarator span =>
    exact leads_discard hs
      (steady_resolveType (steady_instantiate _) hs hknown.left hknown.right span).toLeads
  | resolveNode node =>
    exact leads_discard hs (steady_resolveNode node (steady_instantiate _) hs hknown).toLeads
  | resolveClass node =>
    exact leads_discard hs (steady_resolveClass (steady_instantiate _) hs hknown).toLeads
  | instantiate template arguments span =>
    exact leads_discard hs (leads_instantiate hs hknown.head hknown.tail span span)
  | bindArguments template arguments span =>
    exact leads_discard hs
      (steady_bindArguments hs hknown.head hknown.tail span span).toLeads

/-- An operation keeps a session closed, and the session grows. -/
theorem Operation.preserves {op : Operation} (hs : s.Closed) (h : op.IsOn s) :
    (op.after s).Closed ∧ s.Grows (op.after s) := by
  by_cases hop : op.IsUnchecked
  · cases op with
    | graph op =>
      have hon : op.IsOn s.types := fun o ho =>
        h.known (.type o) (List.mem_append_left _ (List.mem_map_of_mem ho))
      refine ⟨hs.form hon fun y hy => ?_, .of_types (TypeGraph.Operation.after_canonical hs.types
        hon).2⟩
      exact h.known (.symbol y) (List.mem_append_right _ (List.mem_map_of_mem hy))
    | _ => exact absurd hop id
  · exact (Operation.leads hop hs h).changes.preserves hs

/-- A run keeps a session closed, and the session grows. -/
theorem Run.preserves (h : s.Run u) (hs : s.Closed) : u.Closed ∧ s.Grows u := by
  induction h with
  | refl => exact ⟨hs, .refl s⟩
  | step _ op isOn ih =>
    obtain ⟨hclosed, hgrows⟩ := Operation.preserves ih.1 isOn
    exact ⟨hclosed, ih.2.trans hgrows⟩

theorem Run.closed {config : Config} (h : (start config).Run s) : s.Closed :=
  (h.preserves (.start config)).1

theorem exec_discard {α : Type} (x : Analysis α) (s : Session) :
    (exec (do let _ ← x : Analysis Unit) s).2 = (exec x s).2 := by
  rw [exec_bind]
  rcases exec x s with ⟨r, u⟩
  cases r <;> rfl

theorem Run.instantiate (h : s.Run u) {template : SymbolId} {args : List Node} {span : Span}
    (hcall : (Operation.instantiate template args span).IsOn u) :
    s.Run (exec (Session.instantiate template args span) u).2 := by
  rw [← exec_discard]
  exact h.step _ hcall

theorem Run.bindArguments (h : s.Run u) {template : SymbolId} {args : List Node} {span : Span}
    (hcall : (Operation.bindArguments template args span).IsOn u) :
    s.Run (exec (Session.bindArguments template args span) u).2 := by
  rw [← exec_discard]
  exact h.step _ hcall

/-- An instance that has been made is returned again ever after. -/
theorem Run.exec_instantiate {v : Session} (h : u.Run v) (hs : s.Closed) {template : SymbolId}
    {args : List Node} {span : Span} (hcall : (Operation.instantiate template args span).IsOn s)
    {i : SymbolId} (hi : exec (Session.instantiate template args span) s = (.ok i, u))
    (span' : Span) : exec (Session.instantiate template args span') v = (.ok i, v) := by
  have hsteady := steady_instantiate s s (.refl s) hs template args span span'
    hcall.known.head hcall.known.tail
  obtain ⟨hcalled, _⟩ := hsteady.changes.preserves hs
  have hagain := hsteady.again i (by rw [hi])
  rw [hi] at hcalled hagain
  obtain ⟨hlater, hgrows⟩ := h.preserves hcalled
  exact hagain v hlater hgrows

/-- What every change keeps, and new types as well, is kept by a run. -/
theorem Run.keeps (h : s.Run u) (property : Session → Prop) (hs : s.Closed)
    (hchange : ∀ {role : Role} (v w : Session), v.Closed → v.Change role w → property v →
      property w)
    (htypes : ∀ (v : Session) (types : TypeGraph), v.Closed → Closed { v with types } →
      v.Grows { v with types } → property v → property { v with types })
    (hproperty : property s) : property u := by
  induction h with
  | refl => exact hproperty
  | step run op isOn ih =>
    have hclosed := (run.preserves hs).1
    by_cases hop : op.IsUnchecked
    · cases op with
      | graph op =>
        obtain ⟨hafter, hgrows⟩ := Operation.preserves hclosed isOn
        exact htypes _ _ hclosed hafter hgrows ih
      | _ => exact absurd hop id
    · exact (Operation.leads hop hclosed isOn).changes.invariant property hclosed hchange ih

theorem Run.invariant (h : s.Run u) (property : Session → Prop) (hs : s.Closed)
    (hchange : ∀ {role : Role} (v w : Session), v.Closed → v.Change role w → property v →
      property w)
    (htypes : ∀ (v : Session) (types : TypeGraph), property v → property { v with types })
    (hproperty : property s) : property u :=
  h.keeps property hs hchange (fun v types _ _ _ => htypes v types) hproperty

theorem CheckedRun.run (h : s.CheckedRun u) : s.Run u := by
  induction h with
  | refl => exact .refl
  | step _ op isOn _ ih => exact ih.step op isOn

theorem CheckedRun.changes (h : s.CheckedRun u) (hs : s.Closed) : s.Changes u := by
  induction h with
  | refl => exact .refl
  | step _ op isOn checked ih =>
    exact ih.trans (Operation.leads checked (ih.preserves hs).1 isOn).changes

/-- What an instantiation has returned in a run, it returns at every later point of the
run, and then leaves the session as it is: it adds no symbol, no scope and no type,
and changes none. -/
theorem instantiate_again {config : Config} (hs : (start config).Run s) {template : SymbolId}
    {args : List Node} {span : Span}
    (hcall : (Operation.instantiate template args span).IsOn s) {i : SymbolId}
    (hi : (exec (instantiate template args span) s).1 = .ok i)
    (hu : (exec (instantiate template args span) s).2.Run u) (span' : Span) :
    exec (instantiate template args span') u = (.ok i, u) :=
  hu.exec_instantiate hs.closed hcall (exec_eq_of_ok hi) span'

/-- A template `Box` with one value parameter, instantiated behind its header for `1`,
and again after the header has been closed. -/
theorem instantiate_again_box :
    let s := (Operation.declareClass "Box" .structKey .synthesized).after
      ((Operation.beginTemplate [⟨"N", .nonType, none, false, none, .synthesized⟩]
        .synthesized).after (start .standard))
    let call := instantiate ⟨1⟩ [.literal (.int 1) .synthesized] .synthesized
    let u := (Operation.endTemplate .synthesized).after (exec call s).2
    (exec call s).1 = .ok ⟨2⟩ ∧ exec call u = (.ok ⟨2⟩, u) := by
  intro s call u
  have hrun : (start .standard).Run s :=
    (Run.refl.step _ .of_handles_nil).step _ .of_handles_nil
  have hbox : s.table.HasSymbol ⟨1⟩ := by decide
  have hcall : (Operation.instantiate ⟨1⟩ [.literal (.int 1) .synthesized] .synthesized).IsOn s :=
    .of_symbol hbox
  have hresult : (exec call s).1 = .ok ⟨2⟩ := rfl
  exact ⟨hresult, instantiate_again hrun hcall hresult
    (Run.refl.step _ .of_handles_nil) .synthesized⟩

end TemplateAnalysis.Session
