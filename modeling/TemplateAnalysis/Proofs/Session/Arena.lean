import Mathlib.Data.List.Nodup
import TemplateAnalysis.Proofs.Session.OwnScopes
import TemplateAnalysis.Proofs.SymbolTable.Arena

/-!
# Sessions keep their links in order

Every change of a session is a sequence of elementary steps of its table, so what these
keep of the links between symbols and scopes holds of every session that operations reach,
also after operations that failed. A namespace, a class, an enum or a template has a scope
of its own once its declaration is through.
-/

namespace TemplateAnalysis

open Session

namespace SymbolTable

variable {t : SymbolTable}

/-! ### Changes as steps -/

theorem Step.insertEntity (t : SymbolTable) {scope : ScopeId} (hscope : t.HasScope scope)
    (name : String) (entity : Entity) (span : Span) :
    t.Step (t.insertEntity scope name entity span).2 := .declare name _ hscope rfl

theorem Steps.pushContainer (t : SymbolTable) {key : String} {x : Symbol} (kind : ScopeKind)
    (hhas : t.HasScope x.enclosing) (hscope : x.scope = none) :
    t.Steps (t.pushContainer key x kind) := by
  have hnew := t.symbol_pushSymbol key x t.nextSymbol
  rw [if_pos rfl] at hnew
  have hopen := Step.open (t := (t.pushSymbol key x).2) t.nextSymbol kind
    ((t.hasSymbol_pushSymbol key x _).mpr (.inr rfl)) (by rw [hnew, hscope])
  rw [hnew] at hopen
  exact .tail (.single (.declare key x hhas hscope)) hopen

theorem Steps.introduce (t : SymbolTable) {scope : ScopeId} (hscope : t.HasScope scope)
    (name : String) (entity : Entity) (span : Span) :
    t.Steps (t.introduce scope name entity span).2 := by
  unfold SymbolTable.introduce
  cases ownScopeKind? entity.kind with
  | none => exact .single (.insertEntity t hscope name entity span)
  | some kind => exact .pushContainer t kind hscope rfl

theorem Steps.foldl_expose {scope : ScopeId} {aliases : List (String × SymbolId)} :
    ∀ {t : SymbolTable}, (∀ b ∈ aliases, t.MayBind scope b.2) →
      t.Steps (aliases.foldl (fun t (name, target) => t.expose scope name target) t) := by
  induction aliases with
  | nil => exact fun _ => .refl
  | cons b rest ih =>
    intro t h
    refine .head (.expose scope b.1 b.2 (h b List.mem_cons_self)) (ih fun c hc => ?_)
    obtain ⟨hhas, hplace⟩ := h c (List.mem_cons_of_mem _ hc)
    exact ⟨hhas, hplace⟩

theorem Steps.introduceTemplate {u : SymbolTable} {header enclosing : ScopeId} {name : String}
    {entity : TemplatedEntity} {parameters : ParameterList} {span : Span} {declared : Declared}
    (hhas : t.HasScope enclosing) (hopen : (t.scope header).isOpenHeader = true)
    (haround : (t.scope header).enclosing = some enclosing)
    (h : t.introduceTemplate header enclosing name entity parameters span = .ok (declared, u)) :
    t.Steps u := by
  obtain ⟨_, _, rfl⟩ := introduceTemplate_eq h
  have hsymbol := t.symbol_insertEntity enclosing name (.template ⟨parameters, entity, none, false⟩)
    span
  have hheader : ((t.insertEntity enclosing name (.template ⟨parameters, entity, none, false⟩)
        span).2.scope header).owner = none ∧
      ((t.insertEntity enclosing name (.template ⟨parameters, entity, none, false⟩)
        span).2.scope header).enclosing = some enclosing := by
    rw [SymbolTable.insertEntity, scope_pushSymbol]
    split <;> exact ⟨(isOpenHeader_iff.mp hopen).2, haround⟩
  have hinsert := Step.insertEntity t hhas name (.template ⟨parameters, entity, none, false⟩) span
  refine .tail (.tail (.single hinsert) ?_) (.settle header)
  refine .claim t.nextSymbol header ((t.hasSymbol_pushSymbol _ _ _).mpr (.inr rfl)) ?_ hheader.1 ?_
  · rw [hsymbol]
  · rw [hsymbol]
    exact hheader.2

end SymbolTable

namespace Session

variable {s u : Session}

/-- A change does elementary steps to the table. -/
theorem Change.steps {role : Role} (hs : s.Closed) (harena : s.table.Arena)
    (h : s.Change role u) : s.table.Steps u.table := by
  cases h with
  | enter | form => exact .refl
  | edit id f has edit => exact .single (.complete id f edit.grows edit.scope_eq)
  | introduce scope name entity span has => exact .introduce _ has name entity span
  | overload scope name type signature keywords span table has known encoding eq =>
    obtain ⟨_, _, _, rfl⟩ := SymbolTable.declareOverload_eq eq
    exact .single (.declare name _ has rfl)
  | register template data keyword args shown span has =>
    exact .pushContainer _ .classBody (hs.symbol template has).enclosing_has rfl
  | openHeader parameters valid known =>
    refine Closed.insertParameters_induction (motive := fun t => s.table.Steps t) _
      (fun v hv hheader h index p _ => ?_) (hs.pushHeader known)
      ((s.table.hasScope_pushScope _ _).mpr (.inr rfl)) (.single (.openHeader _ parameters))
    exact h.tail (.insertEntity v.table hheader p.name _ p.span)
  | template header enclosing name templated span table isOpen around unnamed eq =>
    exact .introduceTemplate (hs.linked.enclosing_has around) isOpen around eq
  | adopt header own existing isOpen scope =>
    refine .tail (SymbolTable.Steps.foldl_expose fun b hb => ?_) (.settle header)
    obtain ⟨hhas, hplace⟩ := (harena.declared own b.2).mp (SymbolTable.of_mem_parameterAliases hb).1
    exact ⟨hhas, .inl hplace⟩
  | enumerate id data site name value span entity own =>
    have hown := hs.linked.symbol_scope_has id site.own own
    have hinsert := SymbolTable.Step.insertEntity s.table hown name (.enumerator value) span
    unfold EnumSite.insert
    cases site.around with
    | none => exact .single hinsert
    | some scope =>
      refine .tail (.single hinsert) (.expose scope name s.table.nextSymbol ⟨?_, .inr ?_⟩)
      · exact (s.table.hasSymbol_pushSymbol _ _ _).mpr (.inr rfl)
      · exact congrArg Symbol.kind (s.table.symbol_insertEntity site.own name _ span)

theorem Run.arena {config : Config} (h : (start config).Run s) : s.table.Arena :=
  h.invariant (fun s => s.table.Arena) (.start config)
    (fun _ _ hv hchange harena => harena.steps (hchange.steps hv harena)) (fun _ _ harena => harena)
    .initial

/-! ### Symbols with a scope of their own -/

end Session

namespace SymbolTable

variable {t u : SymbolTable}

def Scoped (t : SymbolTable) : Prop :=
  ∀ id, t.HasSymbol id → (t.symbol id).kind.hasScope = true →
    ∃ own, (t.symbol id).scope = some own

namespace Scoped

theorem of_grows (h : t.Scoped) (hgrows : t.Grows u)
    (hnew : ∀ id, u.HasSymbol id → t.HasSymbol id ∨
      ((u.symbol id).kind.hasScope = true → ∃ own, (u.symbol id).scope = some own)) :
    u.Scoped := by
  intro id hid hkind
  rcases hnew id hid with hold | hnew
  · have hsymbol := hgrows.symbol id hold
    rw [hsymbol.kind_eq] at hkind
    obtain ⟨own, hown⟩ := h id hold hkind
    exact ⟨own, hsymbol.scope own hown⟩
  · exact hnew hkind

theorem pushSymbol (h : t.Scoped) (key : String) {x : Symbol} (hx : x.kind.hasScope = false) :
    (t.pushSymbol key x).2.Scoped := by
  refine h.of_grows (.pushSymbol t key x) fun id hid => ?_
  refine ((t.hasSymbol_pushSymbol key x id).mp hid).imp_right ?_
  rintro rfl hkind
  rw [symbol_pushSymbol, if_pos rfl, hx] at hkind
  cases hkind

theorem pushContainer (h : t.Scoped) {key : String} {x : Symbol} {kind : ScopeKind}
    (hx : x.scope = none) : (t.pushContainer key x kind).Scoped := by
  refine h.of_grows (grows_pushContainer hx) fun id hid => ?_
  refine (hasSymbol_pushContainer.mp hid).imp_right ?_
  rintro rfl _
  exact ⟨t.nextScope, by rw [symbol_pushContainer_new]⟩

end Scoped

end SymbolTable

theorem Entity.IsIntroduced.hasScope {e : Entity} (h : e.IsIntroduced)
    (hnone : SymbolTable.ownScopeKind? e.kind = none) : e.kind.hasScope = false := by
  cases e with
  | nameSpace | classType | enumeration => cases hnone
  | template => exact h.elim
  | _ => rfl

namespace Session

variable {s u : Session}

theorem Change.scoped {role : Role} (hs : s.Closed) (h : s.Change role u)
    (hscoped : s.table.Scoped) : u.table.Scoped := by
  have hgrows := (h.grows hs).table
  cases h with
  | enter | form => exact hscoped
  | edit id f =>
    exact hscoped.of_grows hgrows fun j hj =>
      .inl ((s.table.hasSymbol_modifySymbol id j f).mp hj)
  | introduce scope name entity span has closed unnamed introduced =>
    unfold SymbolTable.introduce
    cases hkind : SymbolTable.ownScopeKind? entity.kind with
    | none => exact hscoped.pushSymbol name (introduced.hasScope hkind)
    | some kind => exact hscoped.pushContainer rfl
  | overload scope name type signature keywords span table has known encoding eq =>
    obtain ⟨_, _, _, rfl⟩ := SymbolTable.declareOverload_eq eq
    exact hscoped.pushSymbol name rfl
  | register template data keyword args shown span => exact hscoped.pushContainer rfl
  | openHeader parameters valid known =>
    refine Closed.insertParameters_induction (motive := SymbolTable.Scoped) _
      (fun v hv hheader h index p _ => h.pushSymbol p.name rfl)
      (hs.pushHeader known) ((s.table.hasScope_pushScope _ _).mpr (.inr rfl)) ?_
    exact hscoped.of_grows (.pushScope _ _) fun _ h => .inl h
  | template header enclosing name templated span table isOpen around unnamed eq =>
    refine hscoped.of_grows hgrows fun id hid => ?_
    refine ((hasSymbol_introduceTemplate eq).mp hid).imp_right ?_
    rintro rfl _
    exact ⟨header, by rw [(symbol_introduceTemplate eq).2]⟩
  | adopt header own =>
    have hexpose : SymbolTable.Extends (fun _ => False) s.table
      (s.table.aliasParameters header own) := .foldl_expose own _ (.refl _)
    exact hscoped.of_grows hgrows fun j hj => .inl ((hexpose.added j hj).resolve_right id)
  | enumerate id data site name value span =>
    have hinsert := hscoped.pushSymbol name (x := ⟨name, sourceName name,
      .ofName (s.table.qualify site.own name), site.own, none, false, none, span,
      .enumerator value⟩) rfl
    unfold EnumSite.insert
    cases site.around with
    | none => exact hinsert
    | some scope => exact hinsert.of_grows (.expose _ _ _ _) fun _ h => .inl h

theorem Run.scoped {config : Config} (h : (start config).Run s) : s.table.Scoped :=
  h.invariant (fun s => s.table.Scoped) (.start config)
    (fun _ _ hv hchange hscoped => hchange.scoped hv hscoped) (fun _ _ hscoped => hscoped)
    fun _ hid => absurd hid (Nat.not_lt_zero _)

/-! ### Well-formed sessions -/

/-- Whether every number that a session stores is that of something it has. -/
structure InRange (s : Session) : Prop where
  current : s.table.HasScope s.current
  around : ∀ scope around, (s.table.scope scope).enclosing = some around → s.table.HasScope around
  owner : ∀ scope id, (s.table.scope scope).owner = some id → s.table.HasSymbol id
  binding : ∀ scope, ∀ b ∈ (s.table.scope scope).bindings, s.table.HasSymbol b.2
  declared : ∀ scope, ∀ id ∈ (s.table.scope scope).declared, s.table.HasSymbol id
  pending : ∀ scope parameters, (s.table.scope scope).pending = some parameters →
    AllKnown s.Known (parameters.flatMap (·.handles))
  enclosing : ∀ id, s.table.HasSymbol id → s.table.HasScope (s.table.symbol id).enclosing
  own : ∀ id scope, (s.table.symbol id).scope = some scope → s.table.HasScope scope
  type : ∀ id type, (s.table.symbol id).type = some type → s.types.Has type
  base : ∀ id data, (s.table.symbol id).entity = .classType data →
    ∀ b ∈ data.bases, s.table.HasSymbol b.symbol
  enumerator : ∀ id data, (s.table.symbol id).entity = .enumeration data →
    ∀ e ∈ data.enumerators, s.table.HasSymbol e
  origin : ∀ id origin, (s.table.symbol id).origin? = some origin →
    s.table.HasSymbol origin.template ∧ AllKnown s.Known (handlesOfArguments origin.arguments)
  entity : ∀ id, AllKnown s.Known (s.table.symbol id).entity.handles
  operand : ∀ type label, s.types.label? type = some label →
    ∀ operand ∈ label.operands, s.types.Has operand
  named : ∀ type id q, s.types.label? type = some (.base (.symbol id q)) → s.table.HasSymbol id

theorem Closed.known_entity (hs : s.Closed) (id : SymbolId) :
    AllKnown s.Known (s.table.symbol id).entity.handles := by
  by_cases hid : s.table.HasSymbol id
  · exact (hs.symbol id hid).known
  · rw [SymbolTable.symbol_eq_default hid]
    exact AllKnown.nil

theorem Closed.label_type (hs : s.Closed) {id : SymbolId} {type : TypeId}
    (htype : (s.table.symbol id).type = some type) :
    s.types.label? type = some (.base (.symbol id .none)) := by
  by_cases hid : s.table.HasSymbol id
  · exact (hs.symbol id hid).type_label type htype
  · rw [SymbolTable.symbol_eq_default hid] at htype
    cases htype

theorem Closed.inRange (hs : s.Closed) : s.InRange where
  current := hs.current_has
  around _ _ haround := hs.linked.enclosing_has haround
  owner := hs.linked.owner_has
  binding := hs.linked.binding_has
  declared := hs.linked.declared_has
  pending scope parameters hpending := by
    have hscope : s.table.HasScope scope := by
      by_contra hnot
      rw [SymbolTable.scope_eq_default hnot] at hpending
      cases hpending
    exact (hs.scope scope hscope).pending_known parameters hpending
  enclosing := hs.linked.symbol_enclosing_has
  own := hs.linked.symbol_scope_has
  type id type htype := TypeGraph.has_of_label? (hs.label_type htype)
  base id data hdata b hb := by
    have hknown := hs.known_entity id
    rw [hdata] at hknown
    exact hknown.left.left (.symbol b.symbol) (List.mem_map_of_mem hb)
  enumerator id data hdata e he := by
    have hknown := hs.known_entity id
    rw [hdata] at hknown
    exact hknown.right (.symbol e) (List.mem_map_of_mem he)
  origin id origin horigin := by
    have hknown := hs.known_entity id
    obtain ⟨data, hdata, horigin⟩ := Option.bind_eq_some_iff.mp horigin
    cases hentity : (s.table.symbol id).entity with
    | classType data' =>
      rw [hentity] at hknown hdata
      cases hdata
      have horigin' : AllKnown s.Known ((data.origin.map (·.handles)).getD []) := hknown.right
      rw [horigin] at horigin'
      exact ⟨horigin'.head, horigin'.tail⟩
    | _ =>
      rw [hentity] at hdata
      cases hdata
  entity := hs.known_entity
  operand _ _ hlabel _ hoperand := hs.types.has_operand hlabel hoperand
  named := hs.base_has

/-- Whether the links of a session are well-formed, so that every walk along them ends. -/
structure WellLinked (s : Session) : Prop where
  /-- A scope but the global one stands inside of an older one. -/
  enclosed : ∀ scope, s.table.HasScope scope → scope ≠ .global →
    ∃ around, (s.table.scope scope).enclosing = some around ∧ around.index < scope.index
  /-- A symbol is declared once, in the scope around it. -/
  declared : ∀ id, s.table.HasSymbol id → ∀ scope,
    (s.table.scope scope).declared.count id =
      if scope = (s.table.symbol id).enclosing then 1 else 0
  increasing : ∀ scope, (s.table.scope scope).declared.Pairwise fun y z => y.index < z.index
  owner : ∀ id scope, (s.table.symbol id).scope = some scope ↔
    (s.table.scope scope).owner = some id
  own : ∀ id, s.table.HasSymbol id → (s.table.symbol id).kind.hasScope = true →
    ∃ own, (s.table.symbol id).scope = some own
  inRange : s.InRange
  /-- The type that a symbol remembers is its own, without qualifiers. -/
  type : ∀ id type, (s.table.symbol id).type = some type →
    s.types.label? type = some (.base (.symbol id .none))
  outwards : WellFounded fun around scope => (s.table.scope scope).enclosing = some around
  lookup : ∀ scope name accepted, s.table.lookup scope name accepted =
    (s.table.lookupIn scope name accepted).or
      ((s.table.scope scope).enclosing.bind fun around => s.table.lookup around name accepted)
  ownerChain : ∀ scope, s.table.ownerChain scope =
    (((s.table.scope scope).enclosing.map s.table.ownerChain).getD []) ++
      if s.table.IsHeader scope then [] else (s.table.scope scope).owner.toList
  inwards : WellFounded fun own scope =>
    ∃ id ∈ (s.table.scope scope).declared, SymbolTable.listedScope? (s.table.symbol id) = some own
  outline : ∀ limit, s.table.scopeCount ≤ limit →
    s.table.listingWithin limit 0 .global = s.table.listing

end Session

namespace SymbolTable

variable {t : SymbolTable}

/-- A symbol is listed once in the scope around it, and nowhere else. -/
theorem Arena.count_declared (h : t.Arena) {id : SymbolId} (hid : t.HasSymbol id)
    (scope : ScopeId) :
    (t.scope scope).declared.count id = if scope = (t.symbol id).enclosing then 1 else 0 := by
  have hdeclared := h.declared scope id
  split
  · rename_i hscope
    have hnodup : (t.scope scope).declared.Nodup :=
      (h.increasing scope).imp fun {y z} (hlt : y.index < z.index) (heq : y = z) =>
        Nat.lt_irrefl z.index (heq ▸ hlt)
    exact List.count_eq_one_of_mem hnodup (hdeclared.mpr ⟨hid, hscope.symm⟩)
  · rename_i hscope
    exact List.count_eq_zero_of_not_mem fun hmem => hscope (hdeclared.mp hmem).2.symm

theorem lookup_eq (ht : t.Linked) (scope : ScopeId) (name : String) (accepted : KindSet) :
    t.lookup scope name accepted = (t.lookupIn scope name accepted).or
      ((t.scope scope).enclosing.bind fun around => t.lookup around name accepted) := by
  rw [SymbolTable.lookup, enclosingScopes_eq ht, List.findSome?_cons]
  cases t.lookupIn scope name accepted <;> cases (t.scope scope).enclosing <;> rfl

end SymbolTable

namespace Session

/-- The links of every session that operations reach are well-formed, and walks along them
end. -/
theorem wellLinked_of_run {config : Config} {s : Session} (h : (start config).Run s) :
    s.WellLinked := by
  have hs := h.closed
  have harena := h.arena
  exact
    { enclosed := fun scope hscope hne => by
        obtain ⟨around, haround⟩ := harena.enclosed scope hscope hne
        exact ⟨around, haround, hs.linked.enclosing_lt scope around haround⟩
      declared := fun id hid => harena.count_declared hid
      increasing := harena.increasing
      owner := harena.owner
      own := h.scoped
      inRange := hs.inRange
      type := fun id type => hs.label_type
      outwards := hs.linked.wellFounded_enclosing
      lookup := SymbolTable.lookup_eq hs.linked
      ownerChain := SymbolTable.ownerChain_eq hs.linked
      inwards := harena.wellFounded_listedScope? hs.linked
      outline := fun limit hlimit => harena.listingWithin_eq hs.linked limit _ 0 .global
        hs.global_has (by omega) (by omega) }

/-- A template `N::Box` that is declared twice. The header of the second declaration is left
without an owner, and closing a namespace inside of the template fails. -/
theorem wellLinked_of_run_redeclared :
    let header (name : String) : Operation :=
      .beginTemplate [⟨name, .type, none, false, none, .synthesized⟩] .synthesized
    let s := (Operation.endTemplate .synthesized).after
      ((Operation.declareClass "Box" .structKey .synthesized).after ((header "T").after
        ((Operation.openNamespace "N" .synthesized).after (start .standard))))
    let u := (Operation.closeNamespace .synthesized).after
      ((Operation.declareClass "Box" .structKey .synthesized).after ((header "U").after s))
    (start .standard).Run u ∧ u.current = ⟨2⟩ ∧ (u.table.scope ⟨3⟩).owner = none ∧
      u.WellLinked := by
  intro header s u
  have hs : (start .standard).Run s :=
    (((Run.refl.step _ .of_handles_nil).step _ .of_handles_nil).step _ .of_handles_nil).step _
      .of_handles_nil
  have hu : (start .standard).Run u :=
    ((hs.step _ .of_handles_nil).step _ .of_handles_nil).step _ .of_handles_nil
  have hcurrent : u.current = ⟨2⟩ := by decide +kernel
  have howner : (u.table.scope ⟨3⟩).owner = none := by decide +kernel
  exact ⟨hu, hcurrent, howner, wellLinked_of_run hu⟩

end Session

end TemplateAnalysis
