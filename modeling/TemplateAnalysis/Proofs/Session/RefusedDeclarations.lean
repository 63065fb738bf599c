import TemplateAnalysis.Proofs.Session.ParameterLists

/-!
# Declarations that are refused

A name of a scope is asked for as an entity of a kind or as an overload of a function. A
request that is refused leaves the table as it was, but for one slip: a template that is
declared again takes the defaults of the new parameters before it is known that the list
they make has no gap, and keeps them when it has one.
-/

namespace TemplateAnalysis

theorem Declaring.exec_eq_of_error {α : Type} {change : Declaring α} {t : SymbolTable}
    {d : Diagnostic} (h : (change.exec t).1 = .error d) :
    change.exec t = (.error d, (change.exec t).2) := Prod.ext h rfl

theorem TemplatedEntity.exists_ofKind? (e : TemplatedEntity) :
    ∃ templated, TemplatedEntity.ofKind? e.kind = some templated := by
  cases e <;> exact ⟨_, rfl⟩

namespace SymbolTable

variable {t u : SymbolTable} {scope header : ScopeId} {name : String} {span : Span}
  {kind : SymbolKind} {existing : SymbolId} {data : TemplateData} {merged : ParameterList}
  {d : Diagnostic}

/-- What a name of a scope can be asked for as. -/
inductive Request where
  | entity (kind : SymbolKind) (accepted : KindSet) (entity : Entity)
  | overload (type : TypeId) (signature : String) (keywords : KeywordSet)

def Request.declare (scope : ScopeId) (name : String) (span : Span) : Request → Declaring Declared
  | .entity kind accepted introduced =>
    SymbolTable.declare scope name kind accepted span introduced
  | .overload type signature keywords => do
    let t ← get
    let (declared, t) ← MonadExcept.ofExcept
      (t.declareOverload scope name type signature keywords span)
    set t
    return declared

theorem Request.exec_overload (t : SymbolTable) (scope : ScopeId) (name : String) (span : Span)
    (type : TypeId) (signature : String) (keywords : KeywordSet) :
    ((overload type signature keywords).declare scope name span).exec t =
      match t.declareOverload scope name type signature keywords span with
      | .ok (declared, u) => (.ok declared, u)
      | .error d => (.error d, t) := by
  rw [declare, Declaring.exec_get_bind, Declaring.exec_ofExcept_bind]
  cases t.declareOverload scope name type signature keywords span <;> rfl

/-- Behind a header a template of a kind is declared again, and with the defaults that the
header brings its parameters have a gap. -/
structure MakesGap (t : SymbolTable) (header : ScopeId) (name : String) (kind : SymbolKind)
    (span : Span) (existing : SymbolId) (data : TemplateData) (merged : ParameterList)
    (d : Diagnostic) : Prop where
  isOpenHeader : (t.scope header).isOpenHeader = true
  first : ∃ enclosing, (t.scope header).enclosing = some enclosing ∧
    ((t.scope enclosing).named name).head? = some existing
  entity : (t.symbol existing).entity = .template data
  own : (t.symbol existing).scope.isSome = true
  kind : data.entity.kind = kind
  merge : data.parameters.merge ((t.scope header).pending.getD []) name span = .ok merged
  fault : merged.checkTrailingDefaults name span = .error d

/-- Whether two tables differ at most in the parameters of one template. -/
structure TakesParameters (t : SymbolTable) (existing : SymbolId) (data : TemplateData)
    (merged : ParameterList) (u : SymbolTable) : Prop where
  scopes : u.scopes = t.scopes
  symbolCount : u.symbolCount = t.symbolCount
  symbol : u.symbol existing =
    { t.symbol existing with entity := .template { data with parameters := merged } }
  others : ∀ id, id ≠ existing → u.symbol id = t.symbol id

theorem eq_of_symbol_eq (hscopes : u.scopes = t.scopes) (hcount : u.symbolCount = t.symbolCount)
    (hsymbol : ∀ id, u.symbol id = t.symbol id) : u = t := by
  have hsymbols : u.symbols = t.symbols := by
    refine Array.ext hcount fun i hu ht => ?_
    have hi : u.symbols[i]?.getD default = t.symbols[i]?.getD default := hsymbol ⟨i⟩
    rwa [Array.getElem?_eq_getElem hu, Array.getElem?_eq_getElem ht] at hi
  obtain ⟨symbols, scopes⟩ := u
  cases hsymbols
  cases hscopes
  rfl

theorem takesParameters_modifyTemplate (hdata : (t.symbol existing).entity = .template data)
    (merged : ParameterList) : t.TakesParameters existing data merged
      (t.modifyTemplate existing fun data => { data with parameters := merged }) where
  scopes := rfl
  symbolCount := Array.size_modify
  symbol := by
    rw [modifyTemplate, symbol_modifySymbol_self _ (has_of_entity hdata (by simp))]
    simp only [hdata]
  others id hid := by
    rw [modifyTemplate, symbol_modifySymbol, if_neg fun h => hid h.1]

theorem TakesParameters.unique {v : SymbolTable} (hu : t.TakesParameters existing data merged u)
    (hv : t.TakesParameters existing data merged v) : u = v := by
  refine eq_of_symbol_eq (hu.scopes.trans hv.scopes.symm)
    (hu.symbolCount.trans hv.symbolCount.symm) fun id => ?_
  by_cases hid : id = existing
  · rw [hid, hu.symbol, hv.symbol]
  · rw [hu.others id hid, hv.others id hid]

theorem takesParameters_refl (hdata : (t.symbol existing).entity = .template data) :
    t.TakesParameters existing data data.parameters t :=
  ⟨rfl, rfl, by rw [← hdata], fun _ _ => rfl⟩

theorem TakesParameters.eq_iff (h : t.TakesParameters existing data merged u)
    (hdata : (t.symbol existing).entity = .template data) :
    u = t ↔ merged = data.parameters := by
  constructor
  · rintro rfl
    have hentity := congrArg Symbol.entity h.symbol
    rw [hdata] at hentity
    exact (congrArg TemplateData.parameters (Entity.template.inj hentity)).symm
  · rintro rfl
    exact h.unique (takesParameters_refl hdata)

/-- Behind an open header, a template that is refused takes nothing or makes a gap. -/
theorem declareTemplate_refused (hopen : (t.scope header).isOpenHeader = true)
    (h : (declareTemplate header name kind span).exec t = (.error d, u)) :
    u = t ∨ ∃ existing data merged, t.MakesGap header name kind span existing data merged d ∧
      t.TakesParameters existing data merged u := by
  rw [exec_declareTemplate] at h
  split at h
  · exact .inl (congrArg Prod.snd h).symm
  · exact .inl (congrArg Prod.snd h).symm
  · rename_i enclosing _ henclosing
    split at h
    · rename_i existing rest hnamed
      rw [exec_redeclareTemplate] at h
      split at h
      · exact .inl (congrArg Prod.snd h).symm
      · rename_i data own hfound
        obtain ⟨hdata, hkind, hown⟩ := redeclaredTemplate_eq hfound
        split at h
        · exact .inl (congrArg Prod.snd h).symm
        · rename_i merged hmerge
          dsimp only at h
          split at h
          · -- The list has been stored when its defaults are checked.
            rename_i fault hfault
            cases h
            exact .inr ⟨existing, data, merged,
              ⟨hopen, ⟨enclosing, henclosing, by rw [hnamed]; rfl⟩, hdata, by rw [hown]; rfl,
                hkind, hmerge, hfault⟩,
              takesParameters_modifyTemplate hdata merged⟩
          · cases h
    · split at h
      · exact .inl (congrArg Prod.snd h).symm
      · cases h

theorem MakesGap.redeclaredTemplate
    (h : t.MakesGap header name kind span existing data merged d) :
    ∃ own, t.redeclaredTemplate existing name kind span = .ok (data, own) := by
  obtain ⟨own, hown⟩ := Option.isSome_iff_exists.mp h.own
  exact ⟨own, by simp [SymbolTable.redeclaredTemplate, h.entity, h.kind, hown]⟩

/-- A template that makes a gap is refused, and its list stays. -/
theorem MakesGap.exec_declareTemplate
    (h : t.MakesGap header name kind span existing data merged d) :
    (declareTemplate header name kind span).exec t =
      (.error d, t.modifyTemplate existing fun data => { data with parameters := merged }) := by
  obtain ⟨enclosing, henclosing, hfirst⟩ := h.first
  obtain ⟨rest, hnamed⟩ := List.head?_eq_some_iff.mp hfirst
  obtain ⟨own, hfound⟩ := h.redeclaredTemplate
  obtain ⟨templated, htemplated⟩ := TemplatedEntity.exists_ofKind? data.entity
  rw [h.kind] at htemplated
  rw [SymbolTable.exec_declareTemplate, htemplated, henclosing]
  dsimp only
  rw [hnamed]
  dsimp only
  rw [exec_redeclareTemplate, hfound]
  dsimp only
  rw [h.merge]
  dsimp only
  rw [h.fault]

/-- A request is refused and changes the table exactly if it declares a template again, with
a default that makes a gap in its parameters. Then these parameters are all that changes. -/
theorem Request.refused_and_changed_iff {request : Request} :
    ((request.declare scope name span).exec t = (.error d, u) ∧ u ≠ t) ↔
      ∃ kind accepted introduced existing data merged,
        request = .entity kind accepted introduced ∧
        t.MakesGap scope name kind span existing data merged d ∧ merged ≠ data.parameters ∧
        t.TakesParameters existing data merged u := by
  constructor
  · rintro ⟨h, hne⟩
    cases request with
    | entity kind accepted introduced =>
      rw [Request.declare, exec_declare] at h
      split at h
      · rename_i hopen
        obtain ⟨existing, data, merged, hgap, htakes⟩ :=
          (declareTemplate_refused hopen h).resolve_left hne
        exact ⟨kind, accepted, introduced, existing, data, merged, rfl, hgap,
          mt (htakes.eq_iff hgap.entity).mpr hne, htakes⟩
      · split at h
        · cases h
        · exact absurd (congrArg Prod.snd h).symm hne
    | overload type signature keywords =>
      rw [exec_overload] at h
      split at h
      · cases h
      · exact absurd (congrArg Prod.snd h).symm hne
  · rintro ⟨kind, accepted, introduced, existing, data, merged, rfl, hgap, hne, htakes⟩
    refine ⟨?_, mt (htakes.eq_iff hgap.entity).mp hne⟩
    rw [Request.declare, exec_declare, if_pos hgap.isOpenHeader, hgap.exec_declareTemplate,
      (takesParameters_modifyTemplate hgap.entity merged).unique htakes]

/-- `template <int M, int N> struct Box;` declared again with a default for `M` alone: the
request is refused, and the default stays. -/
theorem Request.refused_and_changed_of_box :
    let header (default : Option Node) := Session.Operation.beginTemplate
      [⟨"M", .nonType, none, false, default, .synthesized⟩,
        ⟨"N", .nonType, none, false, none, .synthesized⟩] .synthesized
    let box := Session.Operation.declareClass "Box" .structKey .synthesized
    let s := (header (some (.literal (.int 1) .synthesized))).after
      ((Session.Operation.endTemplate .synthesized).after
        (box.after ((header none).after (.start .standard))))
    let request := Request.entity .classType (.singleton .classType)
      (.classType ⟨.structKey, [], [], none⟩)
    let d : Diagnostic := ⟨.parameterMismatch "Box" (.missingDefault 1), .synthesized⟩
    let refused := (request.declare s.current "Box" .synthesized).exec s.table
    refused.1 = .error d ∧ refused.2 ≠ s.table ∧ ∃ existing data merged,
      s.table.MakesGap s.current "Box" .classType .synthesized existing data merged d ∧
      s.table.TakesParameters existing data merged refused.2 := by
  intro header box s request d refused
  have herror : refused.1 = .error d := by decide +kernel
  have hne : refused.2 ≠ s.table := by
    intro heq
    have hrequired : (s.table.symbol ⟨2⟩).entity.template?.map
        (fun data => data.parameters.map (·.isRequired)) = some [true, true] := by decide +kernel
    have htaken : (refused.2.symbol ⟨2⟩).entity.template?.map
        (fun data => data.parameters.map (·.isRequired)) = some [false, true] := by decide +kernel
    rw [heq, hrequired] at htaken
    cases htaken
  obtain ⟨_, _, _, existing, data, merged, hrequest, hgap, _, htakes⟩ :=
    Request.refused_and_changed_iff.mp ⟨Declaring.exec_eq_of_error herror, hne⟩
  obtain ⟨rfl, _, _⟩ := Request.entity.inj hrequest
  exact ⟨herror, hne, existing, data, merged, hgap, htakes⟩

end SymbolTable

end TemplateAnalysis
