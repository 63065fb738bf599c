import TemplateAnalysis.Proofs.Session.Refusals

/-!
# Misuse of a session

An operation reports a misuse only if its caller closes what is not open, or if a template
misuses its own parameters. The other misuses are those of a table whose links are out of
order, which no operation makes it.
-/

namespace TemplateAnalysis

open Session Analysis

variable {α : Type} {s : Session} {faults : Faults}

/-! ### Operations -/

/-- The misuses that the table checks for where a name is declared or a scope is asked for. -/
inductive Misuse.IsOfTable : Misuse → Prop
  | overloadRequired (name : String) : IsOfTable (.overloadRequired name)
  | parameterScopeRequired (name : String) : IsOfTable (.parameterScopeRequired name)
  | entityMismatch (name : String) (given requested : SymbolKind) :
      IsOfTable (.entityMismatch name given requested)
  | noEnclosingScope : IsOfTable .noEnclosingScope
  | noParameterScope (name : String) : IsOfTable (.noParameterScope name)
  | noOwnScope (name : String) : IsOfTable (.noOwnScope name)
  | notAnObject (name : String) : IsOfTable (.notAnObject name)

namespace Session

theorem exec_discard_error {x : Analysis α} {d : Diagnostic} {u : Session}
    (h : exec x s = (.error d, u)) :
    exec (do let _ ← x : Analysis Unit) s = (.error d, u) := by rw [exec_bind, h]

theorem exec_leaveScope_global (hs : s.InOrder) (hcurrent : s.current = .global) (span : Span) :
    exec (leaveScope span) s = (.error (.internal span .leavesGlobalScope), s) := by
  rw [leaveScope, exec_get_bind, exec_scope_bind, hcurrent, hs.placed.global_root.2.2]
  rfl

theorem exec_closeNamespace_closed (hs : s.InOrder)
    (h : ¬ ((s.table.scope s.current).kind = .nameSpace ∧ s.current ≠ .global)) (span : Span) :
    exec (closeNamespace span) s = (.error (.internal span .noNamespaceOpen), s) := by
  have hclosed : (s.table.scope s.current).kind ≠ .nameSpace ∨
      (s.table.scope s.current).enclosing.isNone = true := by
    refine (not_and_or.mp h).imp_right fun hcurrent => ?_
    rw [not_not.mp hcurrent, hs.placed.global_root.2.2]
    rfl
  rw [closeNamespace, exec_get_bind, exec_scope_bind, if_pos hclosed, exec_throw_bind]

theorem exec_endTemplate_closed (h : ¬ s.table.IsHeader s.current) (span : Span) :
    exec (endTemplate span) s = (.error (.internal span .noTemplateOpen), s) := by
  have hkind : (s.table.scope s.current).kind ≠ .templateHeader := h
  rw [endTemplate, exec_get_bind, exec_scope_bind, if_pos hkind, exec_throw_bind]

theorem exec_endTemplate_unowned (h : s.table.IsHeader s.current)
    (howner : (s.table.scope s.current).owner = none) (span : Span) :
    exec (endTemplate span) s = (.error (.internal span .templateDeclaresNothing), s) := by
  have hkind : ¬ (s.table.scope s.current).kind ≠ .templateHeader := not_not.mpr h
  rw [endTemplate, exec_get_bind, exec_scope_bind, if_neg hkind, howner]
  rfl

namespace Operation

def Resolves : Operation → Prop
  | defineClass _ _ | declareTypedef _ _ _ _ | declareFunction _ _ _ _ | declareObject _ _ _ _ _
  | declareSimple _ _ _ _ | resolveType _ _ _ | resolveNode _ | resolveClass _
  | instantiate _ _ _ | bindArguments _ _ _ => True
  | _ => False

def Closes : Operation → Prop
  | leaveScope _ | closeNamespace _ | endTemplate _ => True
  | _ => False

/-- When an operation misuses a session, or a template misuses its parameters. -/
inductive IsMisuse : Operation → Session → Span → Misuse → Prop
  | leavesGlobalScope {s : Session} {span : Span} (current : s.current = .global) :
      IsMisuse (.leaveScope span) s span .leavesGlobalScope
  | noNamespaceOpen {s : Session} {span : Span}
      (closed : ¬ ((s.table.scope s.current).kind = .nameSpace ∧ s.current ≠ .global)) :
      IsMisuse (.closeNamespace span) s span .noNamespaceOpen
  | noTemplateOpen {s : Session} {span : Span} (closed : ¬ s.table.IsHeader s.current) :
      IsMisuse (.endTemplate span) s span .noTemplateOpen
  | templateDeclaresNothing {s : Session} {span : Span} (header : s.table.IsHeader s.current)
      (unowned : (s.table.scope s.current).owner = none) :
      IsMisuse (.endTemplate span) s span .templateDeclaresNothing
  /-- Arguments that fit are substituted into a tree of a template, where the misuse is. -/
  | substitution {op : Operation} {s : Session} {span : Span} (resolves : op.Resolves)
      {template : SymbolId} {data : TemplateData}
      (entity : ((op.after s).table.symbol template).entity = .template data) {t : TreeMisuse}
      (mem : t ∈ data.misuses) (fails : data.Fails (.internal span t.misuse)) :
      IsMisuse op s span t.misuse

variable {op : Operation}

theorem reports (hs : s.InOrder) (hop : op.IsOn s) (hresolves : ¬ op.Resolves)
    (hcloses : ¬ op.Closes) : Reports faults s op.perform := by
  cases op with
  | graph op => exact .of_ok (exec_modify s _)
  | enterScope scope => exact .of_ok (exec_modify s _)
  | openNamespace name span => exact (hs.reports_openNamespace name span).discard
  | beginTemplate parameters span => exact (reports_beginTemplate parameters span).discard
  | declareClass name key span =>
    by_cases hout : s.IsOutside
    · exact (reports_declareClass hout name key span).discard
    · exact (hs.reports_behind hout (.declareClass name key span)).discard
  | declareEnum name isScoped underlying span =>
    exact (hs.reports_declareEnum name isScoped underlying span).discard
  | defineEnum id enumerators span => exact hs.reports_defineEnum hop.known.head enumerators span
  | checkStaticAssert assertion => exact reports_checkStaticAssert assertion
  | typeOfSymbol id =>
    refine Reports.discard ?_
    rw [Session.typeOfSymbol]
    refine .symbol_bind ?_
    split
    · exact .pure _
    · exact .of_ok rfl
  | leaveScope | closeNamespace | endTemplate => exact absurd trivial hcloses
  | _ => exact absurd trivial hresolves

theorem reports_of_resolves (hs : s.InOrder) (hop : op.IsOn s) (h : op.Resolves) :
    Reports .ofResolution s op.perform := by
  cases op with
  | defineClass id specifier =>
    exact reports_defineClass specifier hs hop.known.head hop.known.tail
  | declareTypedef name specifiers declarator span =>
    by_cases hout : s.IsOutside
    · exact (reports_declareTypedef hout name specifiers declarator span).discard
    · exact (hs.reports_behind hout (.declareTypedef name specifiers declarator span)).discard
  | declareFunction name specifiers declarator span =>
    exact (reports_declareFunction name specifiers declarator span).discard
  | declareObject name specifiers declarator initializer span =>
    by_cases hout : s.IsOutside
    · exact (reports_declareObject hout name specifiers declarator initializer span).discard
    · exact (hs.reports_behind hout
        (.declareObject name specifiers declarator initializer span)).discard
  | declareSimple specifiers declarator initializer span =>
    by_cases hout : s.IsOutside
    · exact (reports_declareSimple hout specifiers declarator initializer span).discard
    · exact (hs.reports_behind hout
        (.declareSimple specifiers declarator initializer span)).discard
  | resolveType specifiers declarator span =>
    exact (reports_resolveType s specifiers declarator span).discard
  | resolveNode node => exact (reports_resolveNode s node).discard
  | resolveClass node => exact (reports_resolveClass s node).discard
  | instantiate template arguments span =>
    exact (reports_instantiate s template arguments span).discard
  | bindArguments template arguments span =>
    exact (reports_bindArguments s template arguments span).discard
  | _ => exact absurd h id

theorem not_external_internal {span : Span} {m : Misuse} :
    ¬ (Diagnostic.internal span m).IsExternal := nofun

/-- What an operation that closes a scope reports, is that there is none to close. -/
theorem isMisuse_of_closes (hs : s.InOrder) (hcloses : op.Closes) {span : Span} {m : Misuse}
    (h : (exec op.perform s).1 = .error (.internal span m)) : op.IsMisuse s span m := by
  have hexternal : ¬ Reports .ofProgram s op.perform := fun hreports =>
    not_external_internal (hreports _ h)
  cases op with
  | leaveScope span =>
    by_cases hcurrent : s.current = .global
    · rw [perform, exec_discard_error (exec_leaveScope_global hs hcurrent span)] at h
      cases h
      exact .leavesGlobalScope hcurrent
    · obtain ⟨around, haround⟩ := hs.arena.enclosed s.current hs.closed.current_has hcurrent
      exact absurd (reports_leaveScope haround span).discard hexternal
  | closeNamespace span =>
    by_cases hopen : (s.table.scope s.current).kind = .nameSpace ∧ s.current ≠ .global
    · exact absurd (hs.reports_closeNamespace hopen.1 hopen.2) hexternal
    · rw [perform, exec_closeNamespace_closed hs hopen span] at h
      cases h
      exact .noNamespaceOpen hopen
  | endTemplate span =>
    by_cases hheader : s.table.IsHeader s.current
    · cases howner : (s.table.scope s.current).owner with
      | none =>
        rw [perform, exec_discard_error (exec_endTemplate_unowned hheader howner span)] at h
        cases h
        exact .templateDeclaresNothing hheader howner
      | some id => exact absurd (hs.reports_endTemplate hheader howner).discard hexternal
    · rw [perform, exec_discard_error (exec_endTemplate_closed hheader span)] at h
      cases h
      exact .noTemplateOpen hheader
  | _ => exact absurd hcloses id

/-- Every misuse that is reported is one of the caller, or one in a tree of a template. -/
theorem isMisuse (hs : s.InOrder) (hop : op.IsOn s) {span : Span} {m : Misuse}
    (h : (exec op.perform s).1 = .error (.internal span m)) : op.IsMisuse s span m := by
  by_cases hcloses : op.Closes
  · exact isMisuse_of_closes hs hcloses h
  · by_cases hresolves : op.Resolves
    · cases reports_of_resolves hs hop hresolves _ h with
      | external hexternal => exact absurd hexternal not_external_internal
      | substitution entity fails =>
        obtain ⟨t, ht, rfl⟩ := fails.isAmong m rfl
        exact .substitution hresolves entity ht fails
    · have hreports : Reports .ofProgram s op.perform := reports hs hop hresolves hcloses
      exact absurd (hreports _ h) not_external_internal

/-- No misuse that is reported is one of the table. -/
theorem IsMisuse.not_isOfTable {span : Span} {m : Misuse} (h : op.IsMisuse s span m) :
    ¬ m.IsOfTable := by
  intro htable
  cases h with
  | @substitution op s span resolves template data entity t mem fails => cases t <;> cases htable
  | _ => cases htable

end Operation

/-- In every session that operations reach, an operation reports a misuse only if it leaves the
global scope, closes a namespace or a template where none is open, or looks up a type for which
arguments are substituted into a tree that misuses the parameters of its template. No operation
finds the table out of order. -/
theorem misuse_of_run {config : Config} (hrun : (start config).Run s) {op : Operation}
    (hop : op.IsOn s) {span : Span} {m : Misuse}
    (h : (exec op.perform s).1 = .error (.internal span m)) :
    op.IsMisuse s span m ∧ ¬ m.IsOfTable := by
  have hmisuse := Operation.isMisuse (.of_run hrun) hop h
  exact ⟨hmisuse, hmisuse.not_isOfTable⟩

/-- A template whose second parameter takes the first one for a value by default, where it is a
type. Asking for an instance reports it. -/
theorem misuse_of_run_wrongKind :
    let s := (Operation.declareClass "Box" .structKey .synthesized).after
      ((Operation.beginTemplate [⟨"", .type, none, false, none, .synthesized⟩,
        ⟨"", .nonType, none, false, some (.valueParameter "T" 0 .synthesized), .synthesized⟩]
        .synthesized).after (start .standard))
    let op := Operation.instantiate ⟨0⟩ [.typeId ⟨.singleton .int, none⟩ [] .synthesized]
      .synthesized
    (exec op.perform s).1 = .error (.internal .synthesized (.valueParameterBoundToType "T")) ∧
      op.IsMisuse s .synthesized (.valueParameterBoundToType "T") := by
  intro s op
  have hrun : (start .standard).Run s :=
    (Run.refl.step _ .of_handles_nil).step _ .of_handles_nil
  have hbox : s.table.HasSymbol ⟨0⟩ := by decide +kernel
  have hop : (Operation.instantiate ⟨0⟩ [.typeId ⟨.singleton .int, none⟩ [] .synthesized]
      .synthesized).IsOn s := .of_symbol hbox
  have herror : (exec op.perform s).1 =
      .error (.internal .synthesized (.valueParameterBoundToType "T")) := by decide +kernel
  exact ⟨herror, (misuse_of_run hrun hop herror).1⟩

end Session

end TemplateAnalysis
