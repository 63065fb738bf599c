import TemplateAnalysis.Proofs.Session.Change
import TemplateAnalysis.Proofs.Template.Merging

/-!
# Every change grows a session and keeps it closed

One case per way to change a session. A change that does several things at once is
taken apart into those that touch one symbol or one scope.
-/

namespace TemplateAnalysis

/-! ### Merging defaults -/

theorem TemplateParameter.grows_withDefaultOf (p q : TemplateParameter) :
    p.Grows (p.withDefaultOf q) :=
  ⟨rfl, rfl, rfl, fun node h => by simp [withDefaultOf, h]⟩

theorem grows_zipWith_withDefaultOf {ps qs : ParameterList} (h : ps.length = qs.length) :
    List.Forall₂ TemplateParameter.Grows ps (ps.zipWith TemplateParameter.withDefaultOf qs) := by
  induction ps generalizing qs with
  | nil => exact .nil
  | cons p ps ih =>
    cases qs with
    | nil => cases h
    | cons q qs => exact .cons (p.grows_withDefaultOf q) (ih (Nat.succ.inj h))

theorem handles_zipWith_withDefaultOf {known : Handle → Prop} {ps qs : ParameterList}
    (hps : AllKnown known (ps.flatMap (·.handles)))
    (hqs : AllKnown known (qs.flatMap (·.handles))) :
    AllKnown known ((ps.zipWith TemplateParameter.withDefaultOf qs).flatMap (·.handles)) := by
  induction ps generalizing qs with
  | nil => exact AllKnown.nil
  | cons p ps ih =>
    cases qs with
    | nil => exact AllKnown.nil
    | cons q qs =>
      refine AllKnown.append ?_ (ih hps.right hqs.right)
      have hp : AllKnown known (handlesOfNode? p.defaultArgument) := hps.left
      have hq : AllKnown known (handlesOfNode? q.defaultArgument) := hqs.left
      change AllKnown known (handlesOfNode? (p.defaultArgument.or q.defaultArgument))
      cases hdefault : p.defaultArgument with
      | none => exact hq
      | some node => exact fun h hh => hp h (by rw [hdefault]; exact hh)

/-! ### Changes of one symbol -/

theorem Symbol.Edit.grows {s : Session} {id : SymbolId} {x y : Symbol} {role : Session.Role}
    (h : Symbol.Edit s id x role y) : x.Grows y := by
  cases h with
  | remember type unset label =>
    refine ⟨rfl, rfl, rfl, rfl, fun _ h => h, fun old hold => ?_, fun h => h, .same _⟩
    rw [unset] at hold
    cases hold
  | define => exact ⟨rfl, rfl, rfl, rfl, fun _ h => h, fun _ h => h, fun _ => rfl, .same _⟩
  | addBase data entity undefined base =>
    exact .of_entity (entity ▸ .classType rfl (List.prefix_append _ _))
  | fill data entity key members => exact .of_entity (entity ▸ .classType rfl (List.prefix_refl _))
  | enumerators data entity ids => exact .of_entity (entity ▸ .enumeration rfl rfl)
  | record data entity value free =>
    refine .of_entity (entity ▸ .object rfl rfl fun c hc => ?_)
    cases value with
    | none => exact hc
    | some v => exact absurd ⟨by simp [hc], rfl⟩ free
  | merge data entity parameters merged name span known eq =>
    obtain ⟨hlength, rfl⟩ := ParameterList.length_of_merge eq
    exact .of_entity (entity ▸ .template (grows_zipWith_withDefaultOf hlength) rfl
      fun h => ⟨h, rfl⟩)
  | specify data entity undefined templated kind =>
    exact .of_entity (entity ▸ .template (TemplateParameter.Grows.refl_list _) kind
      fun h => ⟨h, rfl⟩)
  | defineTemplate data entity undefined =>
    exact .of_entity (entity ▸ .template (TemplateParameter.Grows.refl_list _) rfl
      fun _ => ⟨rfl, rfl⟩)
  | pattern data entity undefined kind body =>
    refine .of_entity (entity ▸ .template (TemplateParameter.Grows.refl_list _) kind.symm
      fun h => ?_)
    rw [undefined] at h
    cases h

theorem Symbol.ClosedIn.of_entity {s : Session} {id : SymbolId} {x : Symbol} {e : Entity}
    (hx : x.ClosedIn s id) (he : AllKnown s.Known e.handles) :
    Symbol.ClosedIn s id { x with entity := e } :=
  { hx with known := he }

theorem Symbol.Edit.closed {s : Session} {id : SymbolId} {x y : Symbol} {role : Session.Role}
    (h : Symbol.Edit s id x role y) (hx : x.ClosedIn s id) : y.ClosedIn s id := by
  have hknown := hx.known
  cases h with
  | remember type unset label =>
    exact { hx with type_label := fun ty hty => Option.some.inj hty ▸ label }
  | define => exact { hx with }
  | addBase data entity undefined base has =>
    rw [entity] at hknown
    refine hx.of_entity (AllKnown.append (AllKnown.append ?_ hknown.left.right) hknown.right)
    rw [List.map_append]
    refine AllKnown.append hknown.left.left fun h hh => ?_
    rw [List.mem_singleton.mp hh]
    exact has
  | fill data entity key members known =>
    rw [entity] at hknown
    exact hx.of_entity (AllKnown.append (AllKnown.append hknown.left.left known) hknown.right)
  | enumerators data entity ids known =>
    rw [entity] at hknown
    refine hx.of_entity (AllKnown.append hknown.left fun h hh => ?_)
    obtain ⟨i, hi, rfl⟩ := List.mem_map.mp hh
    exact known i hi
  | record data entity value =>
    rw [entity] at hknown
    exact hx.of_entity hknown
  | merge data entity parameters merged name span known eq =>
    rw [entity] at hknown
    obtain ⟨_, rfl⟩ := ParameterList.length_of_merge eq
    exact hx.of_entity
      (AllKnown.append (handles_zipWith_withDefaultOf hknown.left known) hknown.right)
  | specify data entity undefined templated =>
    rw [entity] at hknown
    exact hx.of_entity hknown
  | defineTemplate data entity undefined =>
    rw [entity] at hknown
    exact hx.of_entity hknown
  | pattern data entity undefined kind body known =>
    rw [entity] at hknown
    exact hx.of_entity (AllKnown.append hknown.left known)

/-! ### New symbols -/

namespace SymbolTable

theorem grows_insertEntity (t : SymbolTable) (scope : ScopeId) (name : String) (entity : Entity)
    (span : Span) : t.Grows (t.insertEntity scope name entity span).2 := .pushSymbol _ _ _

theorem symbol_insertEntity (t : SymbolTable) (scope : ScopeId) (name : String) (entity : Entity)
    (span : Span) :
    (t.insertEntity scope name entity span).2.symbol t.nextSymbol =
      ⟨name, sourceName name, .ofName (t.qualify scope name), scope, none, false, none, span,
        entity⟩ := by
  rw [insertEntity, symbol_pushSymbol, if_pos rfl]

theorem grows_introduce (t : SymbolTable) (scope : ScopeId) (name : String) (entity : Entity)
    (span : Span) : t.Grows (t.introduce scope name entity span).2 := by
  have hinsert := t.grows_insertEntity scope name entity span
  unfold introduce
  cases hkind : ownScopeKind? entity.kind with
  | none => exact hinsert
  | some kind =>
    refine hinsert.trans (.pushOwnScope ?_ kind scope)
    exact congrArg Symbol.scope (t.symbol_insertEntity scope name entity span)

theorem hasSymbol_introduce (t : SymbolTable) (scope : ScopeId) (name : String) (entity : Entity)
    (span : Span) :
    (t.introduce scope name entity span).2.HasSymbol (t.introduce scope name entity span).1 := by
  have hinsert := (t.hasSymbol_pushSymbol name ⟨name, sourceName name, .ofName
    (t.qualify scope name), scope, none, false, none, span, entity⟩ t.nextSymbol).mpr (.inr rfl)
  unfold introduce
  cases ownScopeKind? entity.kind with
  | none => exact hinsert
  | some kind => exact (Grows.pushOwnScope (congrArg Symbol.scope
      (t.symbol_insertEntity scope name entity span)) kind scope).hasSymbol _ hinsert

theorem grows_declareInstance (t : SymbolTable) (scope : ScopeId) (key shown : String)
    (keyword : ClassKey) (origin : InstanceOrigin) (span : Span) :
    t.Grows (t.declareInstance scope key shown keyword origin span).2 := by
  refine (Grows.pushSymbol t key _).trans (.pushOwnScope ?_ .classBody scope)
  exact congrArg Symbol.scope ((t.symbol_pushSymbol key _ _).trans (if_pos rfl))

theorem grows_foldl_expose (aliases : List (String × SymbolId)) (scope : ScopeId)
    (t : SymbolTable) :
    t.Grows (aliases.foldl (fun t (name, target) => t.expose scope name target) t) := by
  induction aliases generalizing t with
  | nil => exact .refl t
  | cons b rest ih => exact (Grows.expose t scope b.1 b.2).trans (ih _)

theorem grows_settleHeader (t : SymbolTable) (header : ScopeId) : t.Grows (t.settleHeader header) :=
  .modifyScope fun _ => .settle _

theorem of_mem_parameterAliases {t : SymbolTable} {header own : ScopeId} {b : String × SymbolId}
    (h : b ∈ t.parameterAliases header own) :
    b.2 ∈ (t.scope own).declared ∧ (t.symbol b.2).kind = .templateParameter := by
  obtain ⟨id, _, hb⟩ := List.mem_filterMap.mp h
  obtain ⟨index, _, hb⟩ := Option.bind_eq_some_iff.mp hb
  obtain ⟨target, htarget, hb⟩ := Option.bind_eq_some_iff.mp hb
  split at hb
  · cases hb
  · cases hb
    refine ⟨List.mem_of_find?_eq_some htarget, ?_⟩
    have hindex := List.find?_some htarget
    rw [parameterIndex?] at hindex
    rw [Symbol.kind]
    cases hentity : (t.symbol target).entity with
    | templateParameter data => rfl
    | _ => simp [hentity, Entity.parameter?] at hindex

theorem grows_adopt (t : SymbolTable) (header own : ScopeId) :
    t.Grows ((t.aliasParameters header own).settleHeader header) := by
  have hexpose := grows_foldl_expose (t.parameterAliases header own) own t
  exact hexpose.trans (grows_settleHeader _ header)

theorem grows_insertParameters (header : ScopeId) (ps : ParameterList) :
    ∀ (index : Nat) (t : SymbolTable), t.Grows (Session.insertParameters header index ps t) := by
  induction ps with
  | nil => exact fun _ t => .refl t
  | cons p rest ih =>
    intro index t
    rw [Session.insertParameters]
    refine Grows.trans ?_ (ih (index + 1) _)
    split
    · exact .refl t
    · exact t.grows_insertEntity _ _ _ _

theorem grows_insert_enumerator (t : SymbolTable) (site : Session.EnumSite) (name : String)
    (value : Constant) (span : Span) : t.Grows (site.insert t name value span).2 := by
  have hinsert := t.grows_insertEntity site.own name (.enumerator value) span
  unfold Session.EnumSite.insert
  cases haround : site.around with
  | none => exact hinsert
  | some scope => exact hinsert.trans (.expose _ _ _ _)

theorem introduceTemplate_eq {t u : SymbolTable} {header enclosing : ScopeId} {name : String}
    {entity : TemplatedEntity} {parameters : ParameterList} {span : Span} {declared : Declared}
    (h : t.introduceTemplate header enclosing name entity parameters span = .ok (declared, u)) :
    parameters.checkTrailingDefaults name span = .ok () ∧ declared = ⟨t.nextSymbol, true⟩ ∧
      u = ((((t.insertEntity enclosing name (.template ⟨parameters, entity, none, false⟩)
        span).2.modifySymbol t.nextSymbol fun s => { s with scope := some header }).modifyScope
          header fun s => { s with owner := some t.nextSymbol }).settleHeader header) := by
  unfold introduceTemplate at h
  obtain ⟨_, hcheck, h⟩ := bind_eq_ok.mp h
  have heq := pure_eq_ok.mp h
  exact ⟨hcheck, (congrArg Prod.fst heq).symm, (congrArg Prod.snd heq).symm⟩

theorem isOpenHeader_iff {x : Scope} :
    x.isOpenHeader = true ↔ x.kind = .templateHeader ∧ x.owner = none := by
  simp [Scope.isOpenHeader]

/-- The header of a new template, which had no owner, gets one. -/
theorem grows_owner_of_insert {t : SymbolTable} {header enclosing : ScopeId} {name : String}
    {entity : Entity} {span : Span} {id owner : SymbolId} {f : Symbol → Symbol}
    (hopen : (t.scope header).isOpenHeader = true) :
    (((t.insertEntity enclosing name entity span).2.modifySymbol id f).scope header).Grows
      { ((t.insertEntity enclosing name entity span).2.modifySymbol id f).scope header with
        owner := some owner } := by
  obtain ⟨hkind, howner⟩ := isOpenHeader_iff.mp hopen
  have hheader : ((t.insertEntity enclosing name entity span).2.scope header).kind =
        .templateHeader ∧
      ((t.insertEntity enclosing name entity span).2.scope header).owner = none := by
    rw [insertEntity, scope_pushSymbol]
    split
    · exact ⟨hkind, howner⟩
    · exact ⟨hkind, howner⟩
  rw [scope_modifySymbol]
  refine ⟨rfl, rfl, fun id hid => ?_, fun hne => absurd hheader.1 hne, List.prefix_refl _,
    List.prefix_refl _, fun _ h => h⟩
  rw [hheader.2] at hid
  cases hid

theorem grows_ownHeader {t : SymbolTable} {header enclosing : ScopeId} {name : String}
    {entity : Entity} {span : Span} (hopen : (t.scope header).isOpenHeader = true) :
    (t.insertEntity enclosing name entity span).2.Grows
      ((((t.insertEntity enclosing name entity span).2.modifySymbol t.nextSymbol
        fun s => { s with scope := some header }).modifyScope header
          fun s => { s with owner := some t.nextSymbol }).settleHeader header) := by
  refine Grows.trans ?_ (grows_settleHeader _ header)
  refine Grows.trans (.modifySymbol fun _ => ?_) (.modifyScope fun _ => ?_)
  · -- The new symbol has no scope yet.
    exact .of_scope (congrArg Symbol.scope (t.symbol_insertEntity _ _ _ _)) header
  · exact grows_owner_of_insert hopen

theorem grows_introduceTemplate {t u : SymbolTable} {header enclosing : ScopeId} {name : String}
    {entity : TemplatedEntity} {parameters : ParameterList} {span : Span} {declared : Declared}
    (hopen : (t.scope header).isOpenHeader = true)
    (h : t.introduceTemplate header enclosing name entity parameters span = .ok (declared, u)) :
    t.Grows u := by
  obtain ⟨_, _, rfl⟩ := introduceTemplate_eq h
  exact (t.grows_insertEntity _ _ _ _).trans (grows_ownHeader hopen)

theorem declareOverload_eq {t u : SymbolTable} {scope : ScopeId} {name signature : String}
    {type : TypeId} {keywords : KeywordSet} {span : Span} {id : SymbolId}
    (h : t.declareOverload scope name type signature keywords span = .ok (⟨id, true⟩, u)) :
    (t.scope scope).isOpenHeader = false ∧
      t.findOverload name type signature span ((t.scope scope).named name) = .ok none ∧
      id = t.nextSymbol ∧
      u = (t.pushSymbol name ⟨name, sourceName name ++ signature,
        .ofFunction (t.qualify scope name) signature, scope, none, false, none, span,
        .function ⟨type, keywords, signature⟩⟩).2 := by
  unfold declareOverload at h
  split at h
  · cases h
  · rename_i hopen
    obtain ⟨found, hfound, h⟩ := bind_eq_ok.mp h
    cases found with
    | some existing => cases pure_eq_ok.mp h
    | none =>
      have heq := pure_eq_ok.mp h
      refine ⟨by simpa using hopen, hfound, ?_, (congrArg Prod.snd heq).symm⟩
      exact (congrArg Declared.symbol (congrArg Prod.fst heq)).symm

end SymbolTable

theorem Session.Change.grows {s u : Session} {role : Role} (hs : s.Closed)
    (h : s.Change role u) : s.Grows u := by
  cases h with
  | enter scope has => exact ⟨rfl, rfl, .refl _, .refl _⟩
  | form op isOn known formed =>
    exact .of_types (TypeGraph.Operation.after_canonical hs.types isOn).2
  | edit id f has edit => exact .of_table (.modifySymbol fun _ => edit.grows)
  | introduce scope name entity span => exact .of_table (s.table.grows_introduce _ _ _ _)
  | overload scope name type signature keywords span table has known encoding eq =>
    obtain ⟨_, _, _, rfl⟩ := SymbolTable.declareOverload_eq eq
    exact .of_table (.pushSymbol _ _ _)
  | register template data keyword args shown span =>
    exact .of_table (s.table.grows_declareInstance _ _ _ _ _ _)
  | openHeader parameters =>
    exact .of_table ((SymbolTable.Grows.pushScope _ _).trans
      (SymbolTable.grows_insertParameters _ _ _ _))
  | template header enclosing name templated span table isOpen around unnamed eq =>
    exact .of_table (SymbolTable.grows_introduceTemplate isOpen eq)
  | adopt header own => exact .of_table (s.table.grows_adopt _ _)
  | enumerate id data site name value span =>
    exact .of_table (s.table.grows_insert_enumerator _ _ _ _)

namespace Session

/-! ### Closed sessions -/

namespace Closed

variable {s : Session}

theorem insertEntity (hs : s.Closed) {scope : ScopeId} (hscope : s.table.HasScope scope)
    (name : String) (entity : Entity) (hentity : AllKnown s.Known entity.handles) (span : Span) :
    Closed { s with table := (s.table.insertEntity scope name entity span).2 } :=
  hs.pushSymbol name (.fresh rfl rfl hscope hentity)

theorem introduce (hs : s.Closed) {scope : ScopeId} (hscope : s.table.HasScope scope)
    (name : String) {entity : Entity} (hentity : AllKnown s.Known entity.handles) (span : Span) :
    Closed { s with table := (s.table.introduce scope name entity span).2 } := by
  have hinsert := hs.insertEntity hscope name entity hentity span
  unfold SymbolTable.introduce
  cases hkind : SymbolTable.ownScopeKind? entity.kind with
  | none => exact hinsert
  | some kind =>
    refine hinsert.pushOwnScope ?_ ?_ kind ?_
    · exact (s.table.hasSymbol_pushSymbol _ _ _).mpr (.inr rfl)
    · exact congrArg Symbol.scope (s.table.symbol_insertEntity scope name entity span)
    · exact (s.table.hasScope_pushSymbol _ _ _).mpr hscope

theorem declareInstance (hs : s.Closed) {scope : ScopeId} (hscope : s.table.HasScope scope)
    (key shown : String) (keyword : ClassKey) {origin : InstanceOrigin}
    (horigin : AllKnown s.Known origin.handles) (span : Span) :
    Closed { s with
      table := (s.table.declareInstance scope key shown keyword origin span).2 } := by
  have hpush := hs.pushSymbol key
    (x := ⟨shown, key, .ofInstance (s.table.scopePath scope) key, scope, none, false, none, span,
      .classType ⟨keyword, [], [], some origin⟩⟩) (.fresh rfl rfl hscope horigin)
  refine hpush.pushOwnScope ?_ ?_ .classBody ?_
  · exact (s.table.hasSymbol_pushSymbol _ _ _).mpr (.inr rfl)
  · exact congrArg Symbol.scope ((s.table.symbol_pushSymbol key _ _).trans (if_pos rfl))
  · exact (s.table.hasScope_pushSymbol _ _ _).mpr hscope

theorem settleHeader (hs : s.Closed) (header : ScopeId) :
    Closed { s with table := s.table.settleHeader header } :=
  hs.modifyScope (fun _ => .settle _) fun h =>
    { hs.scope header h with pending_known := fun ps hps => by cases hps }

theorem foldl_expose (hs : s.Closed) (scope : ScopeId) {aliases : List (String × SymbolId)}
    (haliases : ∀ b ∈ aliases, s.table.HasSymbol b.2) :
    Closed { s with
      table := aliases.foldl (fun t (name, target) => t.expose scope name target) s.table } := by
  induction aliases generalizing s with
  | nil => exact hs
  | cons b rest ih =>
    have hexpose := hs.expose scope b.1 (haliases b (by simp))
    exact ih hexpose fun c hc => haliases c (by simp [hc])

theorem adopt (hs : s.Closed) (header own : ScopeId) :
    Closed { s with table := (s.table.aliasParameters header own).settleHeader header } := by
  refine (hs.foldl_expose own fun b hb => ?_).settleHeader header
  exact hs.linked.declared_has own b.2 (SymbolTable.of_mem_parameterAliases hb).1

theorem insertParameters (header : ScopeId) {ps : ParameterList} :
    ∀ {s : Session} (index : Nat), s.Closed → s.table.HasScope header →
      Closed { s with table := Session.insertParameters header index ps s.table } := by
  induction ps with
  | nil => exact fun _ hs _ => hs
  | cons p rest ih =>
    intro s index hs hheader
    rw [Session.insertParameters]
    split
    · exact ih (index + 1) hs hheader
    · have hinsert := hs.insertEntity hheader p.name
        (.templateParameter ⟨index, p.kind, p.isPack⟩) AllKnown.nil p.span
      exact ih (index + 1) hinsert ((s.table.hasScope_pushSymbol _ _ _).mpr hheader)

/-- What the symbol of one parameter keeps is kept by those of a whole list. -/
theorem insertParameters_induction {motive : SymbolTable → Prop} (header : ScopeId)
    {parameters : ParameterList}
    (hstep : ∀ s : Session, s.Closed → s.table.HasScope header → motive s.table →
      ∀ index p, parameters[index]? = some p → motive (s.table.insertEntity header p.name
        (.templateParameter ⟨index, p.kind, p.isPack⟩) p.span).2)
    (hs : s.Closed) (hheader : s.table.HasScope header) (h : motive s.table) :
    motive (Session.insertParameters header 0 parameters s.table) := by
  suffices hrest : ∀ (rest done : ParameterList) {s : Session}, parameters = done ++ rest →
      s.Closed → s.table.HasScope header → motive s.table →
      motive (Session.insertParameters header done.length rest s.table) from
    hrest parameters [] rfl hs hheader h
  intro rest
  induction rest with
  | nil => exact fun _ _ _ _ _ h => h
  | cons p rest ih =>
    intro done s hall hs hheader h
    rw [Session.insertParameters, show done.length + 1 = (done ++ [p]).length by simp]
    have hall' : parameters = done ++ [p] ++ rest := by simp [hall]
    split
    · exact ih (done ++ [p]) hall' hs hheader h
    · have hinsert := hs.insertEntity hheader p.name
        (.templateParameter ⟨done.length, p.kind, p.isPack⟩) AllKnown.nil p.span
      exact ih (done ++ [p]) hall' hinsert ((s.table.hasScope_pushSymbol _ _ _).mpr hheader)
        (hstep s hs hheader h done.length p (by simp [hall]))

theorem pushHeader (hs : s.Closed) {parameters : ParameterList}
    (hknown : AllKnown s.Known (parameters.flatMap (·.handles))) :
    Closed { s with
      table := (s.table.pushScope
        { Scope.fresh .templateHeader none (some s.current) with
          pending := some parameters }).2 } := by
  have hfresh : (Scope.fresh .templateHeader none (some s.current)).ClosedIn s
      s.table.nextScope := Scope.ClosedIn.fresh _ (fun o ho => by cases ho)
    fun e he => Option.some.inj he ▸ hs.current_has
  exact hs.pushScope { hfresh with pending_known := fun ps hps => Option.some.inj hps ▸ hknown }

theorem openHeader (hs : s.Closed) {parameters : ParameterList}
    (hknown : AllKnown s.Known (parameters.flatMap (·.handles))) :
    Closed { s with
      table := Session.insertParameters s.table.nextScope 0 parameters
        (s.table.pushScope
          { Scope.fresh .templateHeader none (some s.current) with
            pending := some parameters }).2 } :=
  insertParameters s.table.nextScope 0 (hs.pushHeader hknown)
    ((s.table.hasScope_pushScope _ _).mpr (.inr rfl))

theorem introduceTemplate (hs : s.Closed) {header enclosing : ScopeId} {name : String}
    {entity : TemplatedEntity} {parameters : ParameterList} {span : Span} {declared : Declared}
    {table : SymbolTable} (hopen : (s.table.scope header).isOpenHeader = true)
    (haround : (s.table.scope header).enclosing = some enclosing)
    (hknown : AllKnown s.Known (parameters.flatMap (·.handles)))
    (h : s.table.introduceTemplate header enclosing name entity parameters span =
      .ok (declared, table)) : Closed { s with table } := by
  have hheader := SymbolTable.hasScope_of_enclosing haround
  obtain ⟨_, _, rfl⟩ := SymbolTable.introduceTemplate_eq h
  have hinsert := hs.insertEntity (hs.linked.enclosing_has haround) name
    (.template ⟨parameters, entity, none, false⟩) (hknown.append AllKnown.nil) span
  have hnew : (s.table.insertEntity enclosing name (.template ⟨parameters, entity, none, false⟩)
      span).2.HasSymbol s.table.nextSymbol := (s.table.hasSymbol_pushSymbol _ _ _).mpr (.inr rfl)
  have hscoped := hinsert.modifySymbol
    (f := fun x => { x with scope := some header })
    (fun _ => .of_scope (congrArg Symbol.scope (s.table.symbol_insertEntity _ _ _ _)) header)
    fun hid => { hinsert.symbol _ hid with
      scope_has := fun own hown =>
        Option.some.inj hown ▸ (s.table.hasScope_pushSymbol _ _ _).mpr hheader }
  have howned := hscoped.modifyScope
    (f := fun x => { x with owner := some s.table.nextSymbol })
    (fun _ => SymbolTable.grows_owner_of_insert hopen) fun hid => { hscoped.scope _ hid with
      owner_has := fun o ho =>
        Option.some.inj ho ▸ (SymbolTable.hasSymbol_modifySymbol _ _ _ _).mpr hnew }
  exact howned.settleHeader header

end Closed

end Session

theorem Session.Change.closed {s u : Session} {role : Role} (hs : s.Closed)
    (h : s.Change role u) : u.Closed := by
  have hgrows := h.grows hs
  cases h with
  | enter scope has => exact hs.enter has
  | form op isOn known formed => exact hs.form isOn known
  | edit id f has edit =>
    exact hs.modifySymbol (fun _ => edit.grows) fun hid => edit.closed (hs.symbol id hid)
  | introduce scope name entity span has closed unnamed introduced known =>
    exact hs.introduce has name known span
  | overload scope name type signature keywords span table has known encoding eq =>
    obtain ⟨_, _, _, rfl⟩ := SymbolTable.declareOverload_eq eq
    refine hs.pushSymbol name (.fresh rfl rfl has fun h hh => ?_)
    rw [List.mem_singleton.mp hh]
    exact known
  | register template data keyword args shown span has entity templated known =>
    have horigin : AllKnown s.Known (InstanceOrigin.handles ⟨template, args⟩) := known.cons has
    exact hs.declareInstance (hs.symbol template has).enclosing_has _ shown keyword horigin span
  | openHeader parameters valid known => exact hs.openHeader known
  | template header enclosing name templated span table isOpen around unnamed eq =>
    refine hs.introduceTemplate isOpen around ?_ eq
    have hheader := hs.scope header (SymbolTable.hasScope_of_enclosing around)
    cases hpending : (s.table.scope header).pending with
    | none => exact AllKnown.nil
    | some ps => exact hheader.pending_known ps hpending
  | adopt header own => exact hs.adopt header own
  | enumerate id data site name value span entity own around =>
    have hown := hs.linked.symbol_scope_has id site.own own
    have hinsert := hs.insertEntity hown name (.enumerator value) AllKnown.nil span
    unfold Session.EnumSite.insert
    cases haround : site.around with
    | none => exact hinsert
    | some scope =>
      exact hinsert.expose scope name ((s.table.hasSymbol_pushSymbol _ _ _).mpr (.inr rfl))

/-- What a step does to a closed session leaves it closed, and only adds to it. -/
theorem Session.Changes.preserves {s u : Session} (h : s.Changes u) (hs : s.Closed) :
    u.Closed ∧ s.Grows u := by
  induction h with
  | refl => exact ⟨hs, .refl s⟩
  | tail _ hlast ih =>
    obtain ⟨role, hchange⟩ := hlast
    exact ⟨hchange.closed ih.1, ih.2.trans (hchange.grows ih.1)⟩

/-- What every change of a closed session keeps is kept by a step. -/
theorem Session.Changes.invariant {s u : Session} (h : s.Changes u) (property : Session → Prop)
    (hs : s.Closed) (hchange : ∀ {role : Role} (v w : Session), v.Closed → v.Change role w →
      property v → property w)
    (hproperty : property s) : property u := by
  induction h with
  | refl => exact hproperty
  | tail hchanges hlast ih =>
    obtain ⟨role, hlast⟩ := hlast
    exact hchange _ _ (Changes.preserves hchanges hs).1 hlast ih

end TemplateAnalysis
