import TemplateAnalysis.Proofs.Session.Scopes

/-!
# Declaring a name is a sequence of changes

A name is declared in the current scope, or as a template if that is the header of one
that has declared nothing yet. What is done to the table is read off case by case; each
case is a change that has been checked for, and a redeclaration changes nothing but what
a redeclaration may add.
-/

namespace TemplateAnalysis

open Session Analysis

variable {s : Session}

theorem SymbolTable.exec_declare (t : SymbolTable) (scope : ScopeId) (name : String)
    (kind : SymbolKind) (accepted : KindSet) (span : Span) (entity : Entity) :
    (declare scope name kind accepted span entity).exec t =
      if (t.scope scope).isOpenHeader then (declareTemplate scope name kind span).exec t
      else
        match t.declareEntity scope name kind accepted span entity with
        | .ok (declared, u) => (.ok declared, u)
        | .error d => (.error d, t) := by
  rw [declare, Declaring.exec_get_bind]
  split
  · rfl
  · rw [Declaring.exec_ofExcept_bind]
    cases t.declareEntity scope name kind accepted span entity <;> rfl

/-- What is known of a symbol that has been declared: it exists and is of the kind that was
asked for, or behind a header a template of that kind. -/
structure Declared.IsKnown (declared : Declared) (behindHeader : Bool) (kind : SymbolKind)
    (u : Session) : Prop where
  has : u.table.HasSymbol declared.symbol
  kind_eq : behindHeader = false → (u.table.symbol declared.symbol).kind = kind
  template : behindHeader = true → ∃ data,
    (u.table.symbol declared.symbol).entity = .template data ∧ data.entity.kind = kind ∧
      (declared.isNew = true → data.isEntityDefined = false)

/-- Declaring an entity finds a symbol of the scope or introduces one. -/
theorem declareEntity_cases {t u : SymbolTable} {scope : ScopeId} {name : String}
    {kind : SymbolKind} {accepted : KindSet} {span : Span} {entity : Entity} {declared : Declared}
    (h : t.declareEntity scope name kind accepted span entity = .ok (declared, u)) :
    (u = t ∧ declared.isNew = false ∧ declared.symbol ∈ (t.scope scope).named name ∧
        accepted.accepts (t.symbol declared.symbol).kind = true) ∨
      ((t.scope scope).named name = [] ∧ entity.kind = kind ∧ kind ≠ .function ∧ kind ≠ .template ∧
        (declared, u) = (⟨(t.introduce scope name entity span).1, true⟩,
          (t.introduce scope name entity span).2)) := by
  unfold SymbolTable.declareEntity at h
  split at h
  · cases h
  split at h
  · cases h
  rename_i hfunction htemplate
  split at h
  · rename_i existing rest hnamed
    simp only at h
    split at h
    · rename_i haccepts
      cases h
      exact .inl ⟨rfl, rfl, by simp [hnamed], haccepts⟩
    · cases h
  · rename_i hnamed
    split at h
    · cases h
    · rename_i hkind
      cases h
      exact .inr ⟨hnamed, not_not.mp hkind, hfunction, htemplate, rfl⟩

namespace SymbolTable

variable (t : SymbolTable) (scope : ScopeId) (name : String) (entity : Entity) (span : Span)

theorem symbol_introduce_new : ∃ own, (t.introduce scope name entity span).2.symbol
    (t.introduce scope name entity span).1 = ⟨name, sourceName name,
      .ofName (t.qualify scope name), scope, own, false, none, span, entity⟩ := by
  unfold introduce
  cases ownScopeKind? entity.kind with
  | none => exact ⟨_, t.symbol_insertEntity scope name entity span⟩
  | some kind => exact ⟨_, symbol_pushContainer_new (t := t)⟩

theorem symbol_introduce {id : SymbolId} (hid : t.HasSymbol id) :
    (t.introduce scope name entity span).2.symbol id = t.symbol id := by
  have hinsert : Extends (fun _ => True) t (t.insertEntity scope name entity span).2 :=
    (Extends.refl t).pushSymbol name trivial
  unfold introduce
  cases ownScopeKind? entity.kind with
  | none => exact hinsert.old id hid
  | some kind => exact (hinsert.pushOwnScope t.not_hasSymbol_nextSymbol kind scope).old id hid

theorem kind_introduce : ((t.introduce scope name entity span).2.symbol
    (t.introduce scope name entity span).1).kind = entity.kind := by
  obtain ⟨own, h⟩ := t.symbol_introduce_new scope name entity span
  rw [h, Symbol.kind]

theorem enclosing_introduce : ((t.introduce scope name entity span).2.symbol
    (t.introduce scope name entity span).1).enclosing = scope := by
  obtain ⟨own, h⟩ := t.symbol_introduce_new scope name entity span
  rw [h]

end SymbolTable

theorem kind_of_declareEntity {t u : SymbolTable} {scope : ScopeId} {name : String}
    {kind : SymbolKind} {span : Span} {entity : Entity} {declared : Declared}
    (h : t.declareEntity scope name kind (.singleton kind) span entity = .ok (declared, u)) :
    (u.symbol declared.symbol).kind = kind := by
  rcases declareEntity_cases h with ⟨rfl, _, _, haccepts⟩ | ⟨_, hkind, _, _, heq⟩
  · rw [KindSet.accepts_singleton, decide_eq_true_eq] at haccepts
    exact haccepts.symm
  · cases heq
    exact hkind ▸ t.kind_introduce scope name entity span

theorem changes_of_declareEntity {scope : ScopeId} {name : String} {kind : SymbolKind}
    {accepted : KindSet} {span : Span} {entity : Entity} {declared : Declared}
    {table : SymbolTable} (hs : s.Closed) (hscope : s.table.HasScope scope)
    (hclosed : (s.table.scope scope).isOpenHeader = false)
    (hintroduced : entity.kind = kind → kind ≠ .function → kind ≠ .template →
      entity.IsIntroduced) (hentity : AllKnown s.Known entity.handles)
    (htyped : entity.IsTyped s.types)
    (h : s.table.declareEntity scope name kind accepted span entity = .ok (declared, table)) :
    s.PlainChanges { s with table } ∧ table.HasSymbol declared.symbol := by
  rcases declareEntity_cases h with ⟨rfl, _, hmem, _⟩ | ⟨hnone, hkind, hfunction, htemplate, heq⟩
  · exact ⟨.refl, hs.linked.named_has hmem⟩
  · cases heq
    refine ⟨.single (.introduce scope name entity span hscope hclosed hnone
      (hintroduced hkind hfunction htemplate) hentity htyped), ?_⟩
    exact s.table.hasSymbol_introduce scope name entity span

theorem redeclaredTemplate_eq {t : SymbolTable} {existing : SymbolId} {name : String}
    {kind : SymbolKind} {span : Span} {data : TemplateData} {own : ScopeId}
    (h : t.redeclaredTemplate existing name kind span = .ok (data, own)) :
    (t.symbol existing).entity = .template data ∧ data.entity.kind = kind ∧
      (t.symbol existing).scope = some own := by
  unfold SymbolTable.redeclaredTemplate at h
  cases hentity : (t.symbol existing).entity with
  | template found =>
    simp only [hentity] at h
    split at h
    · cases h
    · rename_i hkind
      cases hscope : (t.symbol existing).scope with
      | none =>
        rw [hscope] at h
        cases h
      | some scope =>
        rw [hscope] at h
        cases h
        exact ⟨rfl, not_not.mp hkind, rfl⟩
  | _ =>
    rw [hentity] at h
    cases h

theorem SymbolTable.exec_redeclareTemplate (t : SymbolTable) (header : ScopeId)
    (existing : SymbolId) (name : String) (kind : SymbolKind) (parameters : ParameterList)
    (span : Span) :
    (redeclareTemplate header existing name kind parameters span).exec t =
      match t.redeclaredTemplate existing name kind span with
      | .error d => (.error d, t)
      | .ok (data, own) =>
        match data.parameters.merge parameters name span with
        | .error d => (.error d, t)
        | .ok merged =>
          let u := t.modifyTemplate existing fun data => { data with parameters := merged }
          match merged.checkTrailingDefaults name span with
          | .error d => (.error d, u)
          | .ok _ =>
            (.ok ⟨existing, false⟩, (u.aliasParameters header own).settleHeader header) := by
  rw [redeclareTemplate, Declaring.exec_get_bind, Declaring.exec_ofExcept_bind]
  cases t.redeclaredTemplate existing name kind span with
  | error d => rfl
  | ok found =>
    simp only [Declaring.exec_ofExcept_bind]
    cases found.1.parameters.merge parameters name span with
    | error d => rfl
    | ok merged =>
      simp only [Declaring.exec_modify_bind, Declaring.exec_ofExcept_bind]
      cases merged.checkTrailingDefaults name span <;> rfl

theorem SymbolTable.exec_declareTemplate (t : SymbolTable) (header : ScopeId) (name : String)
    (kind : SymbolKind) (span : Span) :
    (declareTemplate header name kind span).exec t =
      match TemplatedEntity.ofKind? kind, (t.scope header).enclosing with
      | none, _ => (.error (.unsupported span (.templatesOf kind)), t)
      | some _, none => (.error (.internal span .noEnclosingScope), t)
      | some entity, some enclosing =>
        match (t.scope enclosing).named name with
        | existing :: _ =>
          (redeclareTemplate header existing name kind ((t.scope header).pending.getD [])
            span).exec t
        | [] =>
          match t.introduceTemplate header enclosing name entity
            ((t.scope header).pending.getD []) span with
          | .error d => (.error d, t)
          | .ok (declared, u) => (.ok declared, u) := by
  rw [declareTemplate, Declaring.exec_get_bind]
  cases TemplatedEntity.ofKind? kind with
  | none => rfl
  | some entity =>
    cases (t.scope header).enclosing with
    | none => rfl
    | some enclosing =>
      simp only
      cases (t.scope enclosing).named name with
      | cons existing _ => rfl
      | nil =>
        simp only [Declaring.exec_ofExcept_bind]
        cases t.introduceTemplate header enclosing name entity
          ((t.scope header).pending.getD []) span <;> rfl

theorem TemplatedEntity.kind_of_ofKind? {kind : SymbolKind} {entity : TemplatedEntity}
    (h : ofKind? kind = some entity) : entity.kind = kind := by
  cases kind <;> cases h <;> rfl

theorem Session.Closed.pending_known (hs : s.Closed) {header : ScopeId}
    (h : s.table.HasScope header) :
    AllKnown s.Known (((s.table.scope header).pending.getD []).flatMap (·.handles)) := by
  cases hpending : (s.table.scope header).pending with
  | none => exact AllKnown.nil
  | some ps => exact (hs.scope header h).pending_known ps hpending

/-- Redeclaring a template merges its defaults, and they stay also if they turn out to
break a rule. -/
theorem leads_redeclareTemplate (hs : s.Closed) {header : ScopeId}
    (hheader : s.table.HasScope header) (hopen : (s.table.scope header).isOpenHeader = true)
    {existing : SymbolId} (hexisting : s.table.HasSymbol existing) (name : String)
    (kind : SymbolKind) (span : Span) :
    Leads s (onTable (SymbolTable.redeclareTemplate header existing name kind
      ((s.table.scope header).pending.getD []) span)) fun declared u =>
        declared.IsKnown true kind u := by
  have hexec := s.table.exec_redeclareTemplate header existing name kind
    ((s.table.scope header).pending.getD []) span
  cases hfound : s.table.redeclaredTemplate existing name kind span with
  | error d =>
    rw [hfound] at hexec
    exact .changes_of_eq ((exec_onTable s _).trans (by rw [hexec])) .refl fun a ha => by cases ha
  | ok found =>
    obtain ⟨data, own⟩ := found
    obtain ⟨hdata, hkind, hown⟩ := redeclaredTemplate_eq hfound
    rw [hfound] at hexec
    simp only at hexec
    cases hmerged : data.parameters.merge ((s.table.scope header).pending.getD []) name span with
    | error d =>
      rw [hmerged] at hexec
      exact .changes_of_eq ((exec_onTable s _).trans (by rw [hexec])) .refl fun a ha => by cases ha
    | ok merged =>
      rw [hmerged] at hexec
      simp only at hexec
      have hmerge : s.Change .plain { s with
          table := s.table.modifyTemplate existing fun data =>
            { data with parameters := merged } } := by
        refine .edit_of_eq (y := { s.table.symbol existing with
          entity := .template { data with parameters := merged } }) hexisting ?_
          (.merge data hdata _ merged name span (hs.pending_known hheader) hmerged)
        rw [hdata]
      cases hdefaults : merged.checkTrailingDefaults name span with
      | error d =>
        -- The declaration is refused, with the defaults merged.
        rw [hdefaults] at hexec
        exact .changes_of_eq ((exec_onTable s _).trans (by rw [hexec])) (.single hmerge)
          fun a ha => by cases ha
      | ok _ =>
        rw [hdefaults] at hexec
        have hgrows := (hmerge.grows hs).table.symbol existing hexisting
        have hadopt := Session.Change.adopt (s := { s with
            table := s.table.modifyTemplate existing fun data =>
              { data with parameters := merged } }) header own existing hopen
          (hgrows.scope own hown) (hgrows.kind_eq.trans (congrArg Entity.kind hdata))
        refine .changes_of_eq ((exec_onTable s _).trans (by rw [hexec]))
          (.tail (.single hmerge) hadopt) fun declared hdeclared => ?_
        cases hdeclared
        have hgrows' := (hmerge.grows hs).trans (hadopt.grows (hmerge.closed hs))
        obtain ⟨data', hdata', hlater⟩ :=
          (hgrows'.table.symbol existing hexisting).template_entity hdata
        exact ⟨hgrows'.table.hasSymbol _ hexisting, nofun, fun _ =>
          ⟨data', hdata', hlater.kind.trans hkind, fun h => by cases h⟩⟩

theorem symbol_introduceTemplate {t u : SymbolTable} {header enclosing : ScopeId} {name : String}
    {entity : TemplatedEntity} {parameters : ParameterList} {span : Span} {declared : Declared}
    (h : t.introduceTemplate header enclosing name entity parameters span = .ok (declared, u)) :
    u.HasSymbol t.nextSymbol ∧ u.symbol t.nextSymbol = ⟨name, sourceName name,
      .ofName (t.qualify enclosing name), enclosing, some header, false, none, span,
      .template ⟨parameters, entity, none, false⟩⟩ := by
  obtain ⟨_, _, rfl⟩ := SymbolTable.introduceTemplate_eq h
  have hhas : (t.insertEntity enclosing name (.template ⟨parameters, entity, none, false⟩)
      span).2.HasSymbol t.nextSymbol := (t.hasSymbol_pushSymbol _ _ _).mpr (.inr rfl)
  refine ⟨(SymbolTable.hasSymbol_modifySymbol _ _ _ _).mpr hhas, ?_⟩
  have hmodify :=
    SymbolTable.symbol_modifySymbol_self _ hhas fun s => { s with scope := some header }
  rw [SymbolTable.symbol_insertEntity] at hmodify
  exact hmodify

theorem hasSymbol_introduceTemplate {t u : SymbolTable} {header enclosing : ScopeId}
    {name : String} {entity : TemplatedEntity} {parameters : ParameterList} {span : Span}
    {declared : Declared}
    (h : t.introduceTemplate header enclosing name entity parameters span = .ok (declared, u))
    {id : SymbolId} : u.HasSymbol id ↔ t.HasSymbol id ∨ id = t.nextSymbol := by
  obtain ⟨_, _, rfl⟩ := SymbolTable.introduceTemplate_eq h
  exact (SymbolTable.hasSymbol_modifySymbol _ _ _ _).trans (t.hasSymbol_pushSymbol _ _ _)

theorem symbol_introduceTemplate_of_ne {t u : SymbolTable} {header enclosing : ScopeId}
    {name : String} {entity : TemplatedEntity} {parameters : ParameterList} {span : Span}
    {declared : Declared}
    (h : t.introduceTemplate header enclosing name entity parameters span = .ok (declared, u))
    {id : SymbolId} (hid : id ≠ t.nextSymbol) : u.symbol id = t.symbol id := by
  obtain ⟨_, _, rfl⟩ := SymbolTable.introduceTemplate_eq h
  have hmodify := SymbolTable.symbol_modifySymbol (t.insertEntity enclosing name
    (.template ⟨parameters, entity, none, false⟩) span).2 t.nextSymbol id
    fun s => { s with scope := some header }
  rw [if_neg fun h => hid h.1, SymbolTable.insertEntity, SymbolTable.symbol_pushSymbol,
    if_neg hid] at hmodify
  exact hmodify

theorem scope_introduceTemplate {t u : SymbolTable} {header enclosing : ScopeId} {name : String}
    {entity : TemplatedEntity} {parameters : ParameterList} {span : Span} {declared : Declared}
    (hheader : t.HasScope header)
    (h : t.introduceTemplate header enclosing name entity parameters span = .ok (declared, u)) :
    (u.scope header).owner = some t.nextSymbol ∧ (u.scope header).pending = none := by
  obtain ⟨_, _, rfl⟩ := SymbolTable.introduceTemplate_eq h
  have hhas : (t.insertEntity enclosing name (.template ⟨parameters, entity, none, false⟩)
      span).2.HasScope header := (t.hasScope_pushSymbol _ _ _).mpr hheader
  simp [SymbolTable.settleHeader, SymbolTable.scope_modifyScope, hhas]

theorem leads_declareTemplate (hs : s.Closed)
    (hopen : (s.table.scope s.current).isOpenHeader = true) (name : String) (kind : SymbolKind)
    (span : Span) :
    Leads s (onTable (SymbolTable.declareTemplate s.current name kind span)) fun declared u =>
      declared.IsKnown true kind u := by
  have hexec := s.table.exec_declareTemplate s.current name kind span
  have hfail : ∀ d, (SymbolTable.declareTemplate s.current name kind span).exec s.table =
      (.error d, s.table) → Leads s (onTable (SymbolTable.declareTemplate s.current name kind span))
        fun declared u => declared.IsKnown true kind u :=
    fun d h => .changes_of_eq ((exec_onTable s _).trans (by rw [h])) .refl fun a ha => by cases ha
  cases hentity : TemplatedEntity.ofKind? kind with
  | none => exact hfail _ (by rw [hexec, hentity])
  | some entity =>
    cases henclosing : (s.table.scope s.current).enclosing with
    | none => exact hfail _ (by rw [hexec, hentity, henclosing])
    | some enclosing =>
      rw [hentity, henclosing] at hexec
      simp only at hexec
      cases hnamed : (s.table.scope enclosing).named name with
      | cons existing rest =>
        have hexisting : s.table.HasSymbol existing :=
          hs.linked.named_has (hnamed ▸ List.mem_cons_self)
        rw [hnamed] at hexec
        exact .congr (by rw [exec_onTable, exec_onTable, hexec])
          (leads_redeclareTemplate hs hs.current_has hopen hexisting name kind span)
      | nil =>
        rw [hnamed] at hexec
        simp only at hexec
        cases hnew : s.table.introduceTemplate s.current enclosing name entity
            ((s.table.scope s.current).pending.getD []) span with
        | error d => exact hfail d (by rw [hexec, hnew])
        | ok result =>
          obtain ⟨declared, table⟩ := result
          obtain ⟨_, rfl, _⟩ := SymbolTable.introduceTemplate_eq hnew
          obtain ⟨hhas, hsymbol⟩ := symbol_introduceTemplate hnew
          rw [hnew] at hexec
          refine .changes_of_eq ((exec_onTable s _).trans (by rw [hexec]))
            (.single (.template s.current enclosing name entity span table hopen henclosing hnamed
              hnew)) fun declared hdeclared => ?_
          cases hdeclared
          exact ⟨hhas, nofun, fun _ => ⟨_, congrArg Symbol.entity hsymbol,
            TemplatedEntity.kind_of_ofKind? hentity, fun _ => rfl⟩⟩

theorem leads_declare (hs : s.Closed) (name : String) (kind : SymbolKind) (span : Span)
    {entity : Entity}
    (hintroduced : entity.kind = kind → kind ≠ .function → kind ≠ .template →
      entity.IsIntroduced) (hentity : AllKnown s.Known entity.handles)
    (htyped : entity.IsTyped s.types) :
    Leads s (onTable (SymbolTable.declare s.current name kind (.singleton kind) span entity))
      fun declared u => declared.IsKnown (s.table.scope s.current).isOpenHeader kind u := by
  have hexec := s.table.exec_declare s.current name kind (.singleton kind) span entity
  cases hopen : (s.table.scope s.current).isOpenHeader with
  | true =>
    rw [hopen, if_pos rfl] at hexec
    exact .congr (by rw [exec_onTable, exec_onTable, hexec])
      (leads_declareTemplate hs hopen name kind span)
  | false =>
    rw [hopen, if_neg Bool.false_ne_true] at hexec
    cases hdeclare : s.table.declareEntity s.current name kind (.singleton kind) span entity with
    | error d =>
      rw [hdeclare] at hexec
      exact .changes_of_eq ((exec_onTable s _).trans (by rw [hexec])) .refl fun a ha => by cases ha
    | ok result =>
      obtain ⟨declared, table⟩ := result
      rw [hdeclare] at hexec
      obtain ⟨hchanges, hhas⟩ :=
        changes_of_declareEntity hs hs.current_has hopen hintroduced hentity htyped hdeclare
      refine .changes_of_eq ((exec_onTable s _).trans (by rw [hexec])) hchanges fun d hd => ?_
      cases hd
      exact ⟨hhas, fun _ => kind_of_declareEntity hdeclare, nofun⟩

theorem leads_openNamespace (hs : s.Closed) (name : String) (span : Span) :
    Leads s (openNamespace name span) fun _ _ => True := by
  rw [openNamespace]
  refine Leads.get_bind (Leads.bind hs (leads_declare hs name .nameSpace span
    (fun _ _ _ => trivial) AllKnown.nil trivial) fun declared u hdeclared hu _ => ?_)
  refine Leads.bind hu (leads_ownScope hu hdeclared.has span) fun own v hown hv _ => ?_
  obtain ⟨rfl, _, hhas⟩ := hown
  exact Leads.bind hv (leads_enterScope hhas) fun _ _ _ _ _ => Leads.pure trivial

def Session.IsTemplate (s : Session) (id : SymbolId) (kind : SymbolKind) : Prop :=
  s.table.HasSymbol id ∧
    ∃ data, (s.table.symbol id).entity = .template data ∧ data.entity.kind = kind

theorem Session.IsTemplate.grows {u : Session} {id : SymbolId} {kind : SymbolKind}
    (h : s.IsTemplate id kind) (hgrows : s.Grows u) : u.IsTemplate id kind := by
  obtain ⟨hhas, data, hdata, hkind⟩ := h
  obtain ⟨data', hdata', hlater⟩ := (hgrows.table.symbol id hhas).template_entity hdata
  exact ⟨hgrows.table.hasSymbol _ hhas, data', hdata', hlater.kind.trans hkind⟩

theorem leads_defineEntity {id : SymbolId} {kind : SymbolKind} (h : s.IsTemplate id kind)
    (span : Span) : Leads s (defineEntity id span) fun _ _ => True := by
  obtain ⟨hhas, data, hdata, _⟩ := h
  rw [defineEntity]
  refine Leads.symbol_bind ?_
  split
  · exact Leads.throw_bind _ _
  · rename_i hundefined
    rw [hdata] at hundefined
    refine .change (exec_modifyTable s _) (.edit_of_eq (y := { s.table.symbol id with
      entity := .template { data with isEntityDefined := true } }) hhas ?_
      (.defineTemplate data hdata (Bool.eq_false_iff.mpr hundefined))) trivial
    rw [hdata]

/-- Behind a header: the template becomes what it is a template of, and the session
goes on inside of it. -/
theorem leads_enterTemplate (hs : s.Closed) {declared : Declared} {kind : SymbolKind}
    (hdeclared : declared.IsKnown true kind s) {entity : TemplatedEntity}
    (hentity : entity.kind = kind) (defines : Bool) (span : Span) :
    Leads s (enterTemplate declared entity defines span) fun _ _ => True := by
  rw [enterTemplate_eq]
  refine Leads.bind hs (leads_ownScope hs hdeclared.has span) fun own u hown hu _ => ?_
  obtain ⟨rfl, _, hhas⟩ := hown
  obtain ⟨data, hdata, hkind, hundefined⟩ := hdeclared.template rfl
  have htemplate : u.IsTemplate declared.symbol kind := ⟨hdeclared.has, data, hdata, hkind⟩
  have hspecify : Leads u (if declared.isNew then modifyTable (·.modifyTemplate declared.symbol
      fun data => { data with entity }) else pure ()) fun _ _ => True := by
    split
    · rename_i hnew
      refine .change (exec_modifyTable u _) (.edit_of_eq (y := { u.table.symbol declared.symbol with
        entity := .template { data with entity } }) hdeclared.has ?_
        (.specify data hdata (hundefined hnew) entity (hentity.trans hkind.symm))) trivial
      rw [hdata]
    · exact Leads.pure trivial
  refine Leads.bind hu hspecify fun _ v _ hv hgrows => ?_
  have hdefine : Leads v (if defines then defineEntity declared.symbol span else pure ())
      fun _ _ => True := by
    split
    · exact leads_defineEntity (htemplate.grows hgrows) span
    · exact Leads.pure trivial
  exact Leads.bind hv hdefine fun _ w _ _ hgrows' =>
    (leads_enterScope (hgrows'.table.hasScope _ (hgrows.table.hasScope _ hhas))).mono
      fun _ _ _ => trivial

theorem leads_markDefined {id : SymbolId} (hid : s.table.HasSymbol id) :
    Leads s (modifyTable (·.markDefined id)) fun _ _ => True :=
  .change (exec_modifyTable s _) (.edit_of_eq hid rfl .define) trivial

end TemplateAnalysis
