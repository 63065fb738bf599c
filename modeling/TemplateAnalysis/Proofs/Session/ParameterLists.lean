import TemplateAnalysis.Proofs.Session.OwnScopes
import TemplateAnalysis.Proofs.Session.TemplateDeclarations

/-!
# The parameters of templates

A list of parameters is checked when its header is opened, when a template is declared
behind it, and when the template is declared again and takes its defaults. In every session
the parameters of a template are valid, and unless there are none they are those that its
header declares. Two slips can make a list that no template should have: a redeclaration
that is refused for a missing default leaves the defaults that it brings, and a header that
has served a redeclaration can be used again, when it has no parameters left to give. In an
`OrderlyRun`, where neither happens, every list is legal.
-/

namespace TemplateAnalysis

/-! ### Lists -/

namespace ParameterList

variable {ps qs merged : ParameterList} {name : String} {span : Span}

/-- What the parameters of a template have to be. -/
structure IsLegal (ps : ParameterList) : Prop where
  nonempty : ps ≠ []
  valid : ps.validate = .ok ()
  trailing : ∀ name span, ps.checkTrailingDefaults name span = .ok ()

theorem checkTrailingDefaults_eq_ok :
    ps.checkTrailingDefaults name span = .ok () ↔ ps.missingDefault? false 0 = none := by
  rw [checkTrailingDefaults]
  cases ps.missingDefault? false 0 <;> simp

theorem checkTrailingDefaults_eq_error {d : Diagnostic}
    (h : ps.checkTrailingDefaults name span = .error d) :
    ∃ index, d = ⟨.parameterMismatch name (.missingDefault index), span⟩ := by
  rw [checkTrailingDefaults] at h
  split at h
  · rename_i index _
    cases h
    exact ⟨index, rfl⟩
  · cases h

theorem validate_cons {p : TemplateParameter} {rest : ParameterList} :
    validate (p :: rest) = .ok () ↔
      (p.isPack = true → rest = [] ∧ p.defaultArgument = none) ∧ rest.validate = .ok () := by
  rw [validate]
  cases hpack : p.isPack <;> cases hdefault : p.defaultArgument <;> cases rest <;> simp

/-- Compatible lists that are valid have a valid list in common: what is a pack in one is a
pack in the other, so that neither has a default for it. -/
theorem IsCompatible.validate_zipWith (h : ps.IsCompatible qs) (hps : ps.validate = .ok ())
    (hqs : qs.validate = .ok ()) :
    validate (ps.zipWith TemplateParameter.withDefaultOf qs) = .ok () := by
  induction h with
  | nil => rfl
  | cons hcompatible hrest ih =>
    obtain ⟨hp, hps⟩ := validate_cons.mp hps
    obtain ⟨hq, hqs⟩ := validate_cons.mp hqs
    refine validate_cons.mpr ⟨fun hpack => ?_, ih hps hqs⟩
    obtain ⟨rfl, hnone⟩ := hp hpack
    have hnone' := (hq (hcompatible.isPack.symm.trans hpack)).2
    exact ⟨rfl, by simp [TemplateParameter.withDefaultOf, hnone, hnone']⟩

theorem validate_of_merge (hps : ps.validate = .ok ()) (hqs : qs.validate = .ok ())
    (h : ps.merge qs name span = .ok merged) : merged.validate = .ok () := by
  obtain ⟨hcompatible, rfl⟩ := merge_eq_ok.mp h
  exact hcompatible.validate_zipWith hps hqs

theorem eq_nil_of_merge (h : ps.merge qs name span = .ok merged) (hmerged : merged = []) :
    ps = [] := by
  obtain ⟨hlength, rfl⟩ := length_of_merge h
  rcases List.zipWith_eq_nil_iff.mp hmerged with h | h
  · exact h
  · exact List.eq_nil_of_length_eq_zero (by simpa [h] using hlength)

theorem getElem?_of_merge (h : ps.merge qs name span = .ok merged) {index : Nat}
    {p : TemplateParameter} (hp : ps[index]? = some p) :
    ∃ q, merged[index]? = some q ∧ q.kind = p.kind ∧ q.isPack = p.isPack := by
  obtain ⟨hlength, rfl⟩ := length_of_merge h
  obtain ⟨hlt, _⟩ := List.getElem?_eq_some_iff.mp hp
  have hq : qs[index]? = some (qs.get ⟨index, hlength ▸ hlt⟩) := List.getElem?_eq_getElem _
  exact ⟨p.withDefaultOf _, by rw [List.getElem?_zipWith, hp, hq], rfl, rfl⟩

end ParameterList

/-! ### Headers -/

namespace SymbolTable

variable {t u : SymbolTable}

def DeclaresParameters (t : SymbolTable) (scope : ScopeId) (ps : ParameterList) : Prop :=
  ∀ x ∈ (t.scope scope).declared, ∀ p, (t.symbol x).entity.parameter? = some p →
    ∃ q, ps[p.index]? = some q ∧ q.kind = p.kind ∧ q.isPack = p.isPack

/-- Whether the parameters of templates, and those that wait for their template, are valid
and are what their headers declare. -/
structure IsHeaded (t : SymbolTable) : Prop where
  pending : ∀ scope ps, (t.scope scope).pending = some ps →
    ps ≠ [] ∧ ps.validate = .ok () ∧ t.DeclaresParameters scope ps
  template : ∀ id own? ps, (t.symbol id).heading? = some (own?, ps) → ps.validate = .ok () ∧
    ∃ own, own? = some own ∧ (ps ≠ [] → t.DeclaresParameters own ps)

def HasDefaultsInOrder (t : SymbolTable) : Prop :=
  ∀ id own? ps, (t.symbol id).heading? = some (own?, ps) →
    ps ≠ [] ∧ ps.missingDefault? false 0 = none

theorem Owned.ownsNoOpenHeader (h : t.Owned) : t.OwnsNoOpenHeader := by
  intro id own hown
  by_cases hid : t.HasSymbol id
  · simp [Scope.isOpenHeader, h id hid own hown]
  · rw [symbol_eq_default hid] at hown
    cases hown

theorem DeclaresParameters.of_adds {scope : ScopeId} {ps : ParameterList}
    (h : t.DeclaresParameters scope ps) (hadds : AddsNoParameter t u) :
    u.DeclaresParameters scope ps := by
  intro x hx p hp
  obtain ⟨hx, hp⟩ := hadds.declared scope x hx p hp
  exact h x hx p hp

theorem DeclaresParameters.merge {scope : ScopeId} {ps qs merged : ParameterList} {name : String}
    {span : Span} (h : t.DeclaresParameters scope ps)
    (hmerge : ps.merge qs name span = .ok merged) : t.DeclaresParameters scope merged := by
  intro x hx p hp
  obtain ⟨q, hq, hkind, hpack⟩ := h x hx p hp
  obtain ⟨r, hr, hkind', hpack'⟩ := ParameterList.getElem?_of_merge hmerge hq
  exact ⟨r, hr, hkind'.trans hkind, hpack'.trans hpack⟩

namespace IsHeaded

theorem of_adds (h : t.IsHeaded) (hadds : AddsNoParameter t u)
    (htemplate : ∀ id own? ps, (u.symbol id).heading? = some (own?, ps) →
      ps.validate = .ok () ∧ ∃ own, own? = some own ∧ (ps ≠ [] → t.DeclaresParameters own ps)) :
    u.IsHeaded where
  pending scope ps hps := by
    obtain ⟨hne, hvalid, hdeclares⟩ := h.pending scope ps (hadds.pending scope ps hps)
    exact ⟨hne, hvalid, hdeclares.of_adds hadds⟩
  template id own? ps hps := by
    obtain ⟨hvalid, own, hown, hdeclares⟩ := htemplate id own? ps hps
    exact ⟨hvalid, own, hown, fun hne => (hdeclares hne).of_adds hadds⟩

theorem of_keeps (h : t.IsHeaded) (hkeeps : KeepsHeaders t u) : u.IsHeaded :=
  h.of_adds hkeeps.toAddsNoParameter fun id own? ps hps =>
    h.template id own? ps (hkeeps.heading id ▸ hps)

theorem validate_pending (h : t.IsHeaded) (scope : ScopeId) :
    ((t.scope scope).pending.getD []).validate = .ok () := by
  cases hpending : (t.scope scope).pending with
  | none => rfl
  | some ps => exact (h.pending scope ps hpending).2.1

end IsHeaded

/-! ### Opening a header -/

/-- A parameter that is declared in a header is one of those that the header waits with. -/
theorem DeclaresParameters.insertParameter (ht : t.Linked) {header scope : ScopeId}
    {ps : ParameterList} (h : t.DeclaresParameters scope ps) {index : Nat} {p : TemplateParameter}
    (hp : scope = header → ps[index]? = some p) :
    (t.insertEntity header p.name (.templateParameter ⟨index, p.kind, p.isPack⟩)
      p.span).2.DeclaresParameters scope ps := by
  intro x hx q hq
  rw [insertEntity, scope_pushSymbol] at hx
  rw [insertEntity, symbol_pushSymbol] at hq
  by_cases hnew : x = t.nextSymbol
  · rw [if_pos hnew] at hq
    cases hq
    split at hx
    · rename_i hscope
      exact ⟨p, hp hscope.1, rfl, rfl⟩
    · exact absurd (hnew ▸ ht.declared_has scope x hx) t.not_hasSymbol_nextSymbol
  · rw [if_neg hnew] at hq
    refine h x ?_ q hq
    split at hx
    · rw [Scope.declared_insert] at hx
      exact (List.mem_append.mp hx).resolve_right fun h => hnew (List.mem_singleton.mp h)
    · exact hx

structure Waits (t : SymbolTable) (header : ScopeId) (ps : ParameterList) : Prop where
  headed : t.IsHeaded
  pending : (t.scope header).pending = some ps
  free : ∀ id own? qs, (t.symbol id).heading? = some (own?, qs) → own? ≠ some header

theorem heading?_insertParameter {header : ScopeId} {key : String} {p : ParameterData}
    {span : Span} {id : SymbolId} {heading : Option ScopeId × ParameterList}
    (h : ((t.insertEntity header key (.templateParameter p) span).2.symbol id).heading? =
      some heading) : (t.symbol id).heading? = some heading := by
  rw [insertEntity, symbol_pushSymbol] at h
  split at h
  · cases h
  · exact h

theorem Waits.insertParameter (ht : t.Linked) {header : ScopeId} {ps : ParameterList}
    (h : t.Waits header ps) {index : Nat} {p : TemplateParameter} (hp : ps[index]? = some p) :
    (t.insertEntity header p.name (.templateParameter ⟨index, p.kind, p.isPack⟩)
      p.span).2.Waits header ps := by
  have hpending : ∀ scope, ((t.insertEntity header p.name
      (.templateParameter ⟨index, p.kind, p.isPack⟩) p.span).2.scope scope).pending =
        (t.scope scope).pending := by
    intro scope
    rw [insertEntity, scope_pushSymbol]
    split <;> rfl
  refine ⟨⟨fun scope qs hqs => ?_, fun id own? qs hqs => ?_⟩, (hpending header).trans h.pending,
    fun id own? qs hqs => h.free id own? qs (heading?_insertParameter hqs)⟩
  · rw [hpending] at hqs
    obtain ⟨hne, hvalid, hdeclares⟩ := h.headed.pending scope qs hqs
    refine ⟨hne, hvalid, hdeclares.insertParameter ht fun hscope => ?_⟩
    rw [hscope, h.pending] at hqs
    cases hqs
    exact hp
  · have hqs := heading?_insertParameter hqs
    obtain ⟨hvalid, own, hown, hdeclares⟩ := h.headed.template id own? qs hqs
    refine ⟨hvalid, own, hown, fun hne => (hdeclares hne).insertParameter ht fun hscope => ?_⟩
    exact absurd (hscope ▸ hown) (h.free id own? qs hqs)

/-- A header that is new waits with its parameters, none of which it declares yet. -/
theorem waits_pushScope (ht : t.Linked) (h : t.IsHeaded) {ps : ParameterList} (hne : ps ≠ [])
    (hvalid : ps.validate = .ok ()) {x : Scope} (hdeclared : x.declared = [])
    (hpending : x.pending = some ps) : (t.pushScope x).2.Waits t.nextScope ps := by
  have hscope := t.scope_pushScope x
  have hold : ∀ {scope qs}, t.DeclaresParameters scope qs →
      (t.pushScope x).2.DeclaresParameters scope qs := by
    intro scope qs hqs y hy
    rw [hscope] at hy
    split at hy
    · rw [hdeclared] at hy
      cases hy
    · exact hqs y hy
  refine ⟨⟨fun scope qs hqs => ?_, fun id own? qs hqs => ?_⟩, ?_, fun id own? qs hqs hown => ?_⟩
  · rw [hscope] at hqs
    split at hqs
    · rename_i hnew
      rw [hpending] at hqs
      cases hqs
      refine ⟨hne, hvalid, fun y hy => ?_⟩
      rw [hscope, if_pos hnew, hdeclared] at hy
      cases hy
    · obtain ⟨hne, hvalid, hdeclares⟩ := h.pending scope qs hqs
      exact ⟨hne, hvalid, hold hdeclares⟩
  · obtain ⟨hvalid, own, hown, hdeclares⟩ := h.template id own? qs hqs
    exact ⟨hvalid, own, hown, fun hne => hold (hdeclares hne)⟩
  · rw [hscope, if_pos rfl, hpending]
  · obtain ⟨_, _, hown', _⟩ := Symbol.heading?_eq_some.mp hqs
    exact t.not_hasScope_nextScope (ht.symbol_scope_has id _ (hown'.trans hown))

/-! ### Declaring behind a header -/

section Behind

variable {header enclosing : ScopeId} {existing : SymbolId} {name : String}
  {entity : TemplatedEntity} {kind : SymbolKind} {span : Span} {declared : Declared}
  {data : TemplateData} {merged : ParameterList}

theorem addsNoParameter_settleHeader (t : SymbolTable) (header : ScopeId) :
    AddsNoParameter t (t.settleHeader header) :=
  .modifyScope (fun _ _ h => by cases h) fun _ => rfl

theorem addsNoParameter_modifyTemplate (t : SymbolTable) (id : SymbolId)
    (f : TemplateData → TemplateData) : AddsNoParameter t (t.modifyTemplate id f) := by
  refine .modifySymbol ?_
  rcases hx : t.symbol id with ⟨_, _, _, _, _, _, _, _, entity⟩
  cases entity <;> rfl

theorem addsNoParameter_introduceTemplate {parameters : ParameterList}
    (h : t.introduceTemplate header enclosing name entity parameters span = .ok (declared, u)) :
    AddsNoParameter t u := by
  obtain ⟨_, _, rfl⟩ := introduceTemplate_eq h
  refine .trans ?_ (addsNoParameter_settleHeader _ header)
  refine .trans ?_ (.modifyScope (fun _ _ h => h) fun _ => rfl)
  exact .trans (.pushSymbol t name rfl) (.modifySymbol rfl)

theorem heading?_introduceTemplate {parameters : ParameterList}
    (h : t.introduceTemplate header enclosing name entity parameters span = .ok (declared, u))
    {id : SymbolId} {own? : Option ScopeId} {ps : ParameterList}
    (hps : (u.symbol id).heading? = some (own?, ps)) :
    (own? = some header ∧ ps = parameters) ∨ (t.symbol id).heading? = some (own?, ps) := by
  by_cases hid : id = t.nextSymbol
  · subst hid
    rw [(symbol_introduceTemplate h).2] at hps
    cases hps
    exact .inl ⟨rfl, rfl⟩
  · rw [symbol_introduceTemplate_of_ne h hid] at hps
    exact .inr hps

theorem heading?_modifyTemplate {ps : ParameterList} {id : SymbolId} {own? : Option ScopeId}
    (hps : ((t.modifyTemplate existing fun data => { data with parameters := merged }).symbol
      id).heading? = some (own?, ps)) :
    (id = existing ∧ ps = merged ∧ ∃ qs, (t.symbol id).heading? = some (own?, qs)) ∨
      (t.symbol id).heading? = some (own?, ps) := by
  rw [modifyTemplate, symbol_modifySymbol] at hps
  split at hps
  · rename_i hid
    obtain ⟨rfl, _⟩ := hid
    generalize t.symbol id = x at hps ⊢
    obtain ⟨_, _, _, _, _, _, _, _, entity⟩ := x
    cases entity with
    | template data =>
      cases hps
      exact .inl ⟨rfl, rfl, _, rfl⟩
    | _ => exact .inr hps
  · exact .inr hps

/-- What a declaration behind a header can do to the table, with what it returns. -/
inductive DeclaresBehind (t : SymbolTable) (header : ScopeId) :
    Except Diagnostic Declared → SymbolTable → Prop
  | refused (d : Diagnostic) : DeclaresBehind t header (.error d) t
  | template (enclosing : ScopeId) (name : String) (entity : TemplatedEntity) (span : Span)
      (declared : Declared) (u : SymbolTable) (eq : t.introduceTemplate header enclosing name entity
        ((t.scope header).pending.getD []) span = .ok (declared, u)) :
      DeclaresBehind t header (.ok declared) u
  /-- The defaults break a rule once they are merged, and stay. -/
  | merge (existing : SymbolId) (data : TemplateData) (name : String) (span : Span)
      (merged : ParameterList) (d : Diagnostic)
      (entity : (t.symbol existing).entity = .template data)
      (eq : data.parameters.merge ((t.scope header).pending.getD []) name span = .ok merged)
      (fault : merged.checkTrailingDefaults name span = .error d) :
      DeclaresBehind t header (.error d)
        (t.modifyTemplate existing fun data => { data with parameters := merged })
  | redeclare (existing : SymbolId) (data : TemplateData) (own : ScopeId) (name : String)
      (span : Span) (merged : ParameterList) (entity : (t.symbol existing).entity = .template data)
      (eq : data.parameters.merge ((t.scope header).pending.getD []) name span = .ok merged)
      (sound : merged.checkTrailingDefaults name span = .ok ()) :
      DeclaresBehind t header (.ok ⟨existing, false⟩)
        (((t.modifyTemplate existing fun data => { data with parameters := merged }).aliasParameters
          header own).settleHeader header)

theorem declaresBehind_declareTemplate (t : SymbolTable) (header : ScopeId) (name : String)
    (kind : SymbolKind) (span : Span) :
    t.DeclaresBehind header ((declareTemplate header name kind span).exec t).1
      ((declareTemplate header name kind span).exec t).2 := by
  rw [exec_declareTemplate]
  split
  · exact .refused _
  · exact .refused _
  · rename_i entity enclosing _ _
    split
    · rename_i existing _ _
      rw [exec_redeclareTemplate]
      split
      · exact .refused _
      · rename_i data own hfound
        obtain ⟨hdata, _, _⟩ := redeclaredTemplate_eq hfound
        split
        · exact .refused _
        · rename_i merged hmerged
          dsimp only
          split
          · exact .merge existing data name span merged _ hdata hmerged ‹_›
          · exact .redeclare existing data own name span merged hdata hmerged ‹_›
    · split
      · exact .refused _
      · exact .template enclosing name entity span _ _ ‹_›

theorem IsHeaded.merge (h : t.IsHeaded) (hdata : (t.symbol existing).entity = .template data)
    (hmerge : data.parameters.merge ((t.scope header).pending.getD []) name span = .ok merged) :
    (t.modifyTemplate existing fun data => { data with parameters := merged }).IsHeaded := by
  refine h.of_adds (addsNoParameter_modifyTemplate t existing _) fun id own? ps hps => ?_
  rcases heading?_modifyTemplate hps with ⟨rfl, rfl, qs, hqs⟩ | hps
  · obtain ⟨data', hdata', _, rfl⟩ := Symbol.heading?_eq_some.mp hqs
    cases hdata.symm.trans hdata'
    obtain ⟨hvalid, own, hown, hdeclares⟩ := h.template id own? data.parameters hqs
    refine ⟨ParameterList.validate_of_merge hvalid (h.validate_pending header) hmerge, own, hown,
      fun hne => (hdeclares fun hnil => hne ?_).merge hmerge⟩
    rw [(ParameterList.length_of_merge hmerge).2, hnil]
    rfl
  · exact h.template id own? ps hps

theorem IsHeaded.declaresBehind (h : t.IsHeaded) {r : Except Diagnostic Declared}
    (hstep : t.DeclaresBehind header r u) : u.IsHeaded := by
  cases hstep with
  | refused d => exact h
  | template enclosing name entity span declared u eq =>
    refine h.of_adds (addsNoParameter_introduceTemplate eq) fun id own? ps hps => ?_
    rcases heading?_introduceTemplate eq hps with ⟨rfl, rfl⟩ | hps
    · refine ⟨h.validate_pending header, header, rfl, fun hne => ?_⟩
      cases hpending : (t.scope header).pending with
      | none =>
        rw [hpending] at hne
        exact absurd rfl hne
      | some ps => exact (h.pending header ps hpending).2.2
    · exact h.template id own? ps hps
  | merge existing data name span merged d entity eq fault => exact h.merge entity eq
  | redeclare existing data own name span merged entity eq sound =>
    have haliased := (h.merge entity eq).of_keeps (.aliasParameters _ header own)
    exact haliased.of_adds (addsNoParameter_settleHeader _ _) haliased.template

/-- Behind a header that waits with its parameters, only a redeclaration that is refused for
a missing default can leave defaults out of order. -/
theorem HasDefaultsInOrder.declaresBehind (hheaded : t.IsHeaded) (h : t.HasDefaultsInOrder)
    {ps : ParameterList} (hpending : (t.scope header).pending = some ps)
    {r : Except Diagnostic Declared} (hstep : t.DeclaresBehind header r u)
    (hr : ∀ name index span, r ≠ .error ⟨.parameterMismatch name (.missingDefault index), span⟩) :
    u.HasDefaultsInOrder := by
  cases hstep with
  | refused d => exact h
  | template enclosing name entity span declared u eq =>
    intro id own? qs hqs
    rcases heading?_introduceTemplate eq hqs with ⟨rfl, rfl⟩ | hqs
    · obtain ⟨hsound, _⟩ := introduceTemplate_eq eq
      rw [hpending] at hsound ⊢
      exact ⟨(hheaded.pending header ps hpending).1,
        ParameterList.checkTrailingDefaults_eq_ok.mp hsound⟩
    · exact h id own? qs hqs
  | merge existing data name span merged d entity eq fault =>
    obtain ⟨index, rfl⟩ := ParameterList.checkTrailingDefaults_eq_error fault
    exact absurd rfl (hr name index span)
  | redeclare existing data own name span merged entity eq sound =>
    intro id own? qs hqs
    have hqs : ((t.modifyTemplate existing fun data =>
        { data with parameters := merged }).symbol id).heading? = some (own?, qs) :=
      ((KeepsHeaders.aliasParameters _ header own).heading id).symm.trans hqs
    rcases heading?_modifyTemplate hqs with ⟨rfl, rfl, rs, hrs⟩ | hqs
    · obtain ⟨data', hdata', _, rfl⟩ := Symbol.heading?_eq_some.mp hrs
      cases entity.symm.trans hdata'
      exact ⟨mt (ParameterList.eq_nil_of_merge eq) (h id own? _ hrs).1,
        ParameterList.checkTrailingDefaults_eq_ok.mp sound⟩
    · exact h id own? qs hqs

end Behind

end SymbolTable

/-! ### Sessions -/

namespace Session

open Analysis

variable {s u : Session} {config : Config}

/-- What an operation can do to templates and headers. -/
inductive Operation.TouchesHeaders (op : Operation) (s : Session) : Prop
  | keeps (keeps : s.table.KeepsHeaders (op.after s).table)
  | opens (parameters : ParameterList) (span : Span) (is : op = .beginTemplate parameters span)
      (nonempty : parameters ≠ []) (valid : parameters.validate = .ok ())
      (eq : (op.after s).table = insertParameters s.table.nextScope 0 parameters
        (s.table.pushScope { Scope.fresh .templateHeader none (some s.current) with
          pending := some parameters }).2)
  | declares (declares : op.Declares) (behind : (s.table.scope s.current).isOpenHeader = true)
      (r : Except Diagnostic Declared) (t : SymbolTable)
      (step : s.table.DeclaresBehind s.current r t) (keeps : t.KeepsHeaders (op.after s).table)
      (error : ∀ d, r = .error d → (exec op.perform s).1 = .error d)

theorem Operation.touchesHeaders_beginTemplate (parameters : ParameterList) (span : Span)
    (s : Session) : (Operation.beginTemplate parameters span).TouchesHeaders s := by
  have hafter : (Operation.beginTemplate parameters span).after s =
      (exec (Session.beginTemplate parameters span) s).2 := exec_discard _ s
  rw [Session.beginTemplate] at hafter
  by_cases hempty : parameters.isEmpty = true
  · rw [if_pos hempty, exec_throw_bind] at hafter
    exact .keeps (hafter ▸ .refl _)
  rw [if_neg hempty, exec_get_bind] at hafter
  dsimp only at hafter
  split at hafter
  · rw [exec_throw_bind] at hafter
    exact .keeps (hafter ▸ .refl _)
  cases hvalid : parameters.validate with
  | error d =>
    rw [hvalid] at hafter
    exact .keeps (hafter ▸ .refl _)
  | ok _ =>
    rw [hvalid] at hafter
    exact .opens parameters span rfl (by simpa using hempty) hvalid (congrArg table hafter)

theorem Operation.touchesHeaders (op : Operation) (howned : s.table.Owned) :
    op.TouchesHeaders s := by
  by_cases hopens : op.OpensHeader
  · cases op with
    | beginTemplate parameters span => exact touchesHeaders_beginTemplate parameters span s
    | _ => exact absurd hopens id
  by_cases hbehind : op.Declares ∧ ¬ s.IsOutside
  · obtain ⟨hdeclares, houtside⟩ := hbehind
    rcases op.declaresTemplate hdeclares houtside with heq | ⟨name, kind, span, hstep⟩
    · exact .keeps (heq.symm ▸ .refl _)
    · exact .declares hdeclares (by simpa [IsOutside] using houtside) _ _
        (SymbolTable.declaresBehind_declareTemplate _ _ name kind span) hstep.table hstep.error
  · exact .keeps (keepsHeaders howned.ownsNoOpenHeader hopens fun hdeclares =>
      not_not.mp fun houtside => hbehind ⟨hdeclares, houtside⟩)

theorem Operation.isHeaded {op : Operation} (hs : s.Closed) (howned : s.table.Owned)
    (hop : op.IsOn s) (h : s.table.IsHeaded) : (op.after s).table.IsHeaded := by
  cases op.touchesHeaders howned with
  | keeps keeps => exact h.of_keeps keeps
  | opens parameters span is nonempty valid eq =>
    subst is
    have hwaits := SymbolTable.waits_pushScope hs.linked h nonempty valid
      (x := { Scope.fresh .templateHeader none (some s.current) with pending := some parameters })
      rfl rfl
    rw [eq]
    exact (Closed.insertParameters_induction
      (motive := fun v => v.Waits s.table.nextScope parameters) s.table.nextScope
      (fun v hv _ h index p hp => h.insertParameter hv.linked hp) (hs.pushHeader hop.known)
      ((s.table.hasScope_pushScope _ _).mpr (.inr rfl)) hwaits).headed
  | declares _ _ r t step keeps => exact (h.declaresBehind step).of_keeps keeps

theorem heading?_start (id : SymbolId) : ((start config).table.symbol id).heading? = none := by
  rw [SymbolTable.symbol_eq_default (Nat.not_lt_zero _)]
  rfl

theorem Run.isHeaded (h : (start config).Run s) : s.table.IsHeaded := by
  induction h with
  | refl =>
    have hscope : ∀ scope, ((start config).table.scope scope).pending = none := by
      rintro ⟨n⟩
      cases n <;> rfl
    refine ⟨fun scope ps hps => ?_, fun id own? ps hps => ?_⟩
    · rw [hscope] at hps
      cases hps
    · rw [heading?_start] at hps
      cases hps
  | step run op isOn ih =>
    exact Operation.isHeaded run.closed run.owned isOn ih

/-- Whether declarations go into a header that a redeclaration has used, and that has no
parameters left to give. -/
def IsSpent (s : Session) : Prop :=
  (s.table.scope s.current).isOpenHeader = true ∧ (s.table.scope s.current).pending = none

instance : Decidable s.IsSpent := inferInstanceAs (Decidable (_ ∧ _))

/-- Whether an operation declares something behind a spent header, or is refused for a
missing default. -/
def Operation.IsSlip (op : Operation) (s : Session) : Prop :=
  (op.Declares ∧ s.IsSpent) ∨ ∃ name index span,
    (exec op.perform s).1 = .error ⟨.parameterMismatch name (.missingDefault index), span⟩

/-- A run where nothing is declared behind a spent header, and what is refused for a missing
default changes nothing. -/
inductive OrderlyRun (s : Session) : Session → Prop
  | refl : OrderlyRun s s
  | step {u : Session} (run : OrderlyRun s u) (op : Operation) (isOn : op.IsOn u)
    (orderly : op.IsSlip u → op.after u = u) : OrderlyRun s (op.after u)

theorem OrderlyRun.run (h : s.OrderlyRun u) : s.Run u := by
  induction h with
  | refl => exact .refl
  | step _ op isOn _ ih => exact ih.step op isOn

theorem hasDefaultsInOrder_insertParameters {header : ScopeId} {parameters : ParameterList} :
    ∀ {index : Nat} {t : SymbolTable}, t.HasDefaultsInOrder →
      (insertParameters header index parameters t).HasDefaultsInOrder := by
  induction parameters with
  | nil => exact fun h => h
  | cons p rest ih =>
    intro index t h
    rw [insertParameters]
    refine ih ?_
    split
    · exact h
    · exact fun id own? ps hps => h id own? ps (SymbolTable.heading?_insertParameter hps)

theorem Operation.hasDefaultsInOrder {op : Operation} (howned : s.table.Owned)
    (hheaded : s.table.IsHeaded) (horderly : ¬ op.IsSlip s) (h : s.table.HasDefaultsInOrder) :
    (op.after s).table.HasDefaultsInOrder := by
  obtain ⟨hspent, hdefaults⟩ := not_or.mp horderly
  cases op.touchesHeaders howned with
  | keeps keeps => exact fun id own? ps hps => h id own? ps (keeps.heading id ▸ hps)
  | opens parameters span _ _ _ eq =>
    rw [eq]
    exact hasDefaultsInOrder_insertParameters h
  | declares declares behind r t step keeps error =>
    obtain ⟨ps, hpending⟩ := Option.ne_none_iff_exists'.mp
      fun hnone => hspent ⟨declares, behind, hnone⟩
    have ht := h.declaresBehind hheaded hpending step
      fun name index span hr => hdefaults ⟨name, index, span, error _ hr⟩
    exact fun id own? ps hps => ht id own? ps (keeps.heading id ▸ hps)

theorem OrderlyRun.hasDefaultsInOrder (h : (start config).OrderlyRun s) :
    s.table.HasDefaultsInOrder := by
  induction h with
  | refl =>
    intro id own? ps hps
    rw [heading?_start] at hps
    cases hps
  | @step v run op isOn orderly ih =>
    by_cases hslip : op.IsSlip v
    · rwa [orderly hslip]
    · have hrun := run.run
      exact Operation.hasDefaultsInOrder hrun.owned hrun.isHeaded hslip ih

theorem OrderlyRun.success (run : s.OrderlyRun u) (op : Operation) (isOn : op.IsOn u)
    (hspent : ¬ (op.Declares ∧ u.IsSpent)) (hok : (exec op.perform u).1.isOk = true) :
    s.OrderlyRun (op.after u) := by
  refine run.step op isOn fun hslip => ?_
  rcases hslip with h | ⟨name, index, span, h⟩
  · exact absurd h hspent
  · rw [h] at hok
    cases hok

/-- In every session, also behind operations that fail, a pack stands only at the end of the
parameters of a template and has no default, and unless there are no parameters, the
parameter symbols that its header declares stand for them, with their kinds. If nothing was
declared behind a header that a redeclaration has used, and no redeclaration that was refused
for a missing default changed anything, there are parameters, and behind a default every
parameter has one. -/
theorem isLegal_parameters (hrun : (start config).Run s) {id : SymbolId} {data : TemplateData}
    (hdata : (s.table.symbol id).entity = .template data) :
    (data.parameters.validate = .ok () ∧ ∃ own, (s.table.symbol id).scope = some own ∧
      (data.parameters ≠ [] → s.table.DeclaresParameters own data.parameters)) ∧
    ((start config).OrderlyRun s → data.parameters.IsLegal) := by
  have hheading : (s.table.symbol id).heading? = some (_, data.parameters) :=
    Symbol.heading?_eq_some.mpr ⟨data, hdata, rfl, rfl⟩
  have htemplate := hrun.isHeaded.template id _ _ hheading
  refine ⟨htemplate, fun horderly => ?_⟩
  obtain ⟨hne, hdefaults⟩ := horderly.hasDefaultsInOrder id _ _ hheading
  exact ⟨hne, htemplate.1, fun _ _ => ParameterList.checkTrailingDefaults_eq_ok.mpr hdefaults⟩

/-- `template <int M, int N> struct Box;` with a redeclaration that has a default for `N`: the
parameters are legal, and the default has been taken. -/
theorem isLegal_parameters_of_redeclaration :
    let header (default : Option Node) := Operation.beginTemplate
      [⟨"M", .nonType, none, false, none, .synthesized⟩,
        ⟨"N", .nonType, none, false, default, .synthesized⟩] .synthesized
    let box := Operation.declareClass "Box" .structKey .synthesized
    let declared := (Operation.endTemplate .synthesized).after
      (box.after ((header none).after (start .standard)))
    let s := box.after ((header (some (.literal (.int 1) .synthesized))).after declared)
    ∃ data, (s.table.symbol ⟨2⟩).entity = .template data ∧
      data.parameters.map (·.isRequired) = [true, false] ∧ data.parameters.IsLegal := by
  intro header box declared s
  have hheader : (start .standard).OrderlyRun ((header none).after (start .standard)) :=
    OrderlyRun.refl.success _ .of_handles_nil (fun h => h.1) (by decide +kernel)
  have hbox := hheader.success box .of_handles_nil (fun h => absurd h.2 (by decide +kernel))
    (by decide +kernel)
  have hdeclared : (start .standard).OrderlyRun declared :=
    hbox.success (.endTemplate .synthesized) .of_handles_nil (fun h => h.1)
      (by decide +kernel)
  have hagain := hdeclared.success (header (some (.literal (.int 1) .synthesized)))
    .of_handles_nil (fun h => h.1) (by decide +kernel)
  have hrun : (start .standard).OrderlyRun s := hagain.success box .of_handles_nil
    (fun h => absurd h.2 (by decide +kernel)) (by decide +kernel)
  obtain ⟨data, hdata⟩ := Symbol.exists_template
    (show (s.table.symbol ⟨2⟩).kind = .template by decide +kernel)
  have hrequired : (s.table.symbol ⟨2⟩).entity.template?.map
      (fun data => data.parameters.map (·.isRequired)) = some [true, false] := by decide +kernel
  rw [hdata] at hrequired
  exact ⟨data, hdata, Option.some.inj hrequired, (isLegal_parameters hrun.run hdata).2 hrun⟩

end Session

end TemplateAnalysis
