import TemplateAnalysis.Proofs.SymbolTable.Containers
import TemplateAnalysis.Session.Enums

/-!
# Changes that leave template headers alone

A template has a parameter list and a header, its own scope, where the parameters are
declared; a header that is open has a list that waits for its template. `KeepsHeaders t u`
says that nothing of this differs between two tables. Symbols that are neither templates nor
template parameters may be added, with scopes of their own, and completed.
-/

namespace TemplateAnalysis

structure Entity.IsPlain (e : Entity) : Prop where
  template : e.template? = none
  parameter : e.parameter? = none

def Symbol.heading? (x : Symbol) : Option (Option ScopeId × ParameterList) :=
  x.entity.template?.map fun data => (x.scope, data.parameters)

theorem Symbol.heading?_eq_some {x : Symbol} {own? : Option ScopeId} {ps : ParameterList} :
    x.heading? = some (own?, ps) ↔
      ∃ data, x.entity = .template data ∧ x.scope = own? ∧ data.parameters = ps := by
  rw [heading?]
  cases x.entity <;> simp [Entity.template?]

theorem Entity.IsPlain.heading? {x : Symbol} (h : x.entity.IsPlain) : x.heading? = none := by
  rw [Symbol.heading?, h.template]
  rfl

structure Symbol.SameHeading (x y : Symbol) : Prop where
  scope : y.scope = x.scope
  heading : y.heading? = x.heading?
  parameter : y.entity.parameter? = x.entity.parameter?

namespace SymbolTable

variable {t u : SymbolTable}

/-- Whether no parameter is declared, and none waits for its template, that did not in
another table. -/
structure AddsNoParameter (t u : SymbolTable) : Prop where
  pending : ∀ scope ps, (u.scope scope).pending = some ps → (t.scope scope).pending = some ps
  declared : ∀ scope, ∀ x ∈ (u.scope scope).declared, ∀ p,
    (u.symbol x).entity.parameter? = some p →
      x ∈ (t.scope scope).declared ∧ (t.symbol x).entity.parameter? = some p

/-- Whether the templates of a table, with their parameters, and the headers that are open
are those of another table. -/
structure KeepsHeaders (t u : SymbolTable) : Prop extends AddsNoParameter t u where
  heading : ∀ id, (u.symbol id).heading? = (t.symbol id).heading?
  isOpenHeader : ∀ scope, (u.scope scope).isOpenHeader = (t.scope scope).isOpenHeader
  own : ∀ id own, (u.symbol id).scope = some own →
    (t.symbol id).scope = some own ∨ (u.scope own).isOpenHeader = false

def OwnsNoOpenHeader (t : SymbolTable) : Prop :=
  ∀ id own, (t.symbol id).scope = some own → (t.scope own).isOpenHeader = false

namespace AddsNoParameter

theorem refl (t : SymbolTable) : AddsNoParameter t t :=
  ⟨fun _ _ h => h, fun _ _ hx _ hp => ⟨hx, hp⟩⟩

theorem trans {v : SymbolTable} (htu : AddsNoParameter t u) (huv : AddsNoParameter u v) :
    AddsNoParameter t v where
  pending scope ps h := htu.pending scope ps (huv.pending scope ps h)
  declared scope x hx p hp := by
    obtain ⟨hx, hp⟩ := huv.declared scope x hx p hp
    exact htu.declared scope x hx p hp

theorem modifySymbol {id : SymbolId} {f : Symbol → Symbol}
    (h : (f (t.symbol id)).entity.parameter? = (t.symbol id).entity.parameter?) :
    AddsNoParameter t (t.modifySymbol id f) where
  pending _ _ h := h
  declared _ x hx p hp := by
    refine ⟨hx, ?_⟩
    rw [symbol_modifySymbol] at hp
    split at hp
    · rename_i hid
      obtain ⟨rfl, _⟩ := hid
      exact h ▸ hp
    · exact hp

theorem modifyScope {id : ScopeId} {f : Scope → Scope}
    (hpending : ∀ x ps, (f x).pending = some ps → x.pending = some ps)
    (hdeclared : ∀ x, (f x).declared = x.declared) :
    AddsNoParameter t (t.modifyScope id f) where
  pending scope ps h := by
    rw [scope_modifyScope] at h
    split at h
    · exact hpending _ ps h
    · exact h
  declared scope x hx p hp := by
    rw [scope_modifyScope] at hx
    split at hx
    · exact ⟨hdeclared _ ▸ hx, hp⟩
    · exact ⟨hx, hp⟩

theorem pushSymbol (t : SymbolTable) (key : String) {x : Symbol}
    (hx : x.entity.parameter? = none) : AddsNoParameter t (t.pushSymbol key x).2 where
  pending scope ps h := by
    rw [scope_pushSymbol] at h
    split at h <;> exact h
  declared scope y hy p hp := by
    rw [symbol_pushSymbol] at hp
    split at hp
    · rw [hx] at hp
      cases hp
    · rename_i hne
      refine ⟨?_, hp⟩
      rw [scope_pushSymbol] at hy
      split at hy
      · rw [Scope.declared_insert] at hy
        exact (List.mem_append.mp hy).resolve_right fun h => hne (List.mem_singleton.mp h)
      · exact hy

theorem expose (t : SymbolTable) (scope : ScopeId) (name : String) (id : SymbolId) :
    AddsNoParameter t (t.expose scope name id) := by
  refine modifyScope (fun x ps h => ?_) fun x => x.declared_expose name id
  rw [Scope.expose] at h
  split at h <;> exact h

end AddsNoParameter

namespace KeepsHeaders

theorem refl (t : SymbolTable) : KeepsHeaders t t :=
  ⟨.refl t, fun _ => rfl, fun _ => rfl, fun _ _ h => .inl h⟩

theorem trans {v : SymbolTable} (htu : KeepsHeaders t u) (huv : KeepsHeaders u v) :
    KeepsHeaders t v where
  toAddsNoParameter := htu.toAddsNoParameter.trans huv.toAddsNoParameter
  heading id := (huv.heading id).trans (htu.heading id)
  isOpenHeader scope := (huv.isOpenHeader scope).trans (htu.isOpenHeader scope)
  own id own h := by
    rcases huv.own id own h with h | h
    · exact (htu.own id own h).imp_right (huv.isOpenHeader own).trans
    · exact .inr h

theorem ownsNoOpenHeader (h : KeepsHeaders t u) (ht : t.OwnsNoOpenHeader) :
    u.OwnsNoOpenHeader := by
  intro id own hown
  rcases h.own id own hown with hown | hclosed
  · exact (h.isOpenHeader own).trans (ht id own hown)
  · exact hclosed

theorem modifySymbol {id : SymbolId} {f : Symbol → Symbol}
    (h : (t.symbol id).SameHeading (f (t.symbol id))) : KeepsHeaders t (t.modifySymbol id f) := by
  have hsame : ∀ j, (t.symbol j).SameHeading ((t.modifySymbol id f).symbol j) := by
    intro j
    rw [symbol_modifySymbol]
    split
    · rename_i hj
      exact hj.1 ▸ h
    · exact ⟨rfl, rfl, rfl⟩
  exact
    { AddsNoParameter.modifySymbol h.parameter with
      heading j := (hsame j).heading
      isOpenHeader _ := rfl
      own j own hown := .inl ((hsame j).scope ▸ hown) }

theorem expose (t : SymbolTable) (scope : ScopeId) (name : String) (id : SymbolId) :
    KeepsHeaders t (t.expose scope name id) where
  toAddsNoParameter := .expose t scope name id
  heading _ := rfl
  isOpenHeader j := by
    rw [SymbolTable.expose, scope_modifyScope, Scope.expose]
    split
    · split <;> rfl
    · rfl
  own _ _ hown := .inl hown

theorem foldl_expose (aliases : List (String × SymbolId)) (other : ScopeId) (t : SymbolTable) :
    KeepsHeaders t (aliases.foldl (fun u b => u.expose other b.1 b.2) t) := by
  induction aliases generalizing t with
  | nil => exact .refl t
  | cons b rest ih => exact (expose t other b.1 b.2).trans (ih _)

theorem aliasParameters (t : SymbolTable) (header other : ScopeId) :
    KeepsHeaders t (t.aliasParameters header other) :=
  foldl_expose (t.parameterAliases header other) other t

theorem pushSymbol (t : SymbolTable) (key : String) {x : Symbol} (hscope : x.scope = none)
    (hx : x.entity.IsPlain) : KeepsHeaders t (t.pushSymbol key x).2 where
  toAddsNoParameter := .pushSymbol t key hx.parameter
  heading id := by
    rw [symbol_pushSymbol]
    split
    · rename_i hid
      rw [hid, symbol_eq_default t.not_hasSymbol_nextSymbol, hx.heading?]
      rfl
    · rfl
  isOpenHeader scope := by
    rw [scope_pushSymbol]
    split <;> rfl
  own id own h := by
    rw [symbol_pushSymbol] at h
    split at h
    · rw [hscope] at h
      cases h
    · exact .inl h

theorem pushOwnScope {id : SymbolId} (h : (t.symbol id).entity.IsPlain) (kind : ScopeKind)
    (enclosing : ScopeId) : KeepsHeaders t (t.pushOwnScope id kind enclosing) := by
  have hscope : ∀ scope, (t.pushOwnScope id kind enclosing).scope scope =
      if scope = t.nextScope then .fresh kind (some id) (some enclosing) else t.scope scope :=
    fun scope => t.scope_pushScope _ scope
  have hsymbol : ∀ j, (t.pushOwnScope id kind enclosing).symbol j =
      if j = id ∧ t.HasSymbol j then { t.symbol j with scope := some t.nextScope }
      else t.symbol j := fun j => symbol_modifySymbol _ id j _
  refine ⟨⟨fun scope ps hps => ?_, fun scope x hx p hp => ?_⟩, fun j => ?_, fun scope => ?_,
    fun j own hown => ?_⟩
  · rw [hscope] at hps
    split at hps
    · cases hps
    · exact hps
  · rw [hscope] at hx
    split at hx
    · cases hx
    · refine ⟨hx, ?_⟩
      rw [hsymbol] at hp
      split at hp <;> exact hp
  · rw [hsymbol]
    split
    · rename_i hj
      obtain ⟨rfl, _⟩ := hj
      exact h.heading?.symm ▸ Entity.IsPlain.heading? (x := { t.symbol j with scope := _ }) h
    · rfl
  · rw [hscope]
    split
    · rename_i hnew
      rw [hnew, scope_eq_default t.not_hasScope_nextScope]
      exact Bool.and_false _
    · rfl
  · rw [hsymbol] at hown
    split at hown
    · cases hown
      refine .inr ?_
      rw [hscope, if_pos rfl]
      exact Bool.and_false _
    · exact .inl hown

theorem pushContainer (t : SymbolTable) (key : String) {x : Symbol} (hscope : x.scope = none)
    (hx : x.entity.IsPlain) (kind : ScopeKind) : KeepsHeaders t (t.pushContainer key x kind) := by
  refine (pushSymbol t key hscope hx).trans (pushOwnScope ?_ kind x.enclosing)
  rw [symbol_pushSymbol, if_pos rfl]
  exact hx

theorem insertEntity (t : SymbolTable) (scope : ScopeId) (name : String) {entity : Entity}
    (h : entity.IsPlain) (span : Span) :
    KeepsHeaders t (t.insertEntity scope name entity span).2 := pushSymbol t name rfl h

theorem introduce (t : SymbolTable) (scope : ScopeId) (name : String) {entity : Entity}
    (h : entity.IsPlain) (span : Span) : KeepsHeaders t (t.introduce scope name entity span).2 := by
  unfold SymbolTable.introduce
  cases ownScopeKind? entity.kind with
  | none => exact insertEntity t scope name h span
  | some kind => exact pushContainer t name rfl h kind

theorem declareInstance (t : SymbolTable) (scope : ScopeId) (key shown : String)
    (keyword : ClassKey) (origin : InstanceOrigin) (span : Span) :
    KeepsHeaders t (t.declareInstance scope key shown keyword origin span).2 :=
  pushContainer t key rfl ⟨rfl, rfl⟩ .classBody

theorem insertEnumerator (t : SymbolTable) (site : Session.EnumSite) (name : String)
    (value : Constant) (span : Span) : KeepsHeaders t (site.insert t name value span).2 := by
  have hinsert : KeepsHeaders t (t.insertEntity site.own name (.enumerator value) span).2 :=
    insertEntity t site.own name ⟨rfl, rfl⟩ span
  unfold Session.EnumSite.insert
  cases site.around with
  | none => exact hinsert
  | some scope => exact hinsert.trans (expose _ _ _ _)

theorem declareEntity {scope : ScopeId} {name : String} {kind : SymbolKind} {accepted : KindSet}
    {span : Span} {entity : Entity} (hentity : entity.IsPlain) {declared : Declared}
    (h : t.declareEntity scope name kind accepted span entity = .ok (declared, u)) :
    KeepsHeaders t u := by
  unfold SymbolTable.declareEntity at h
  split at h
  · cases h
  split at h
  · cases h
  split at h
  · simp only at h
    split at h <;> cases h
    exact .refl t
  · split at h <;> cases h
    exact introduce t scope name hentity span

theorem declareOverload {scope : ScopeId} {name signature : String} {type : TypeId}
    {keywords : KeywordSet} {span : Span} {declared : Declared}
    (h : t.declareOverload scope name type signature keywords span = .ok (declared, u)) :
    KeepsHeaders t u := by
  unfold SymbolTable.declareOverload at h
  split at h
  · cases h
  · cases hfound : t.findOverload name type signature span ((t.scope scope).named name) with
    | error d =>
      rw [hfound] at h
      cases h
    | ok found =>
      rw [hfound] at h
      cases found with
      | some existing =>
        cases h
        exact .refl t
      | none =>
        cases h
        exact pushSymbol t name rfl ⟨rfl, rfl⟩

/-! ### Completing a symbol -/

theorem modifyClass (t : SymbolTable) (id : SymbolId) (f : ClassData → ClassData) :
    KeepsHeaders t (t.modifyClass id f) := by
  refine modifySymbol ?_
  rcases hx : t.symbol id with ⟨_, _, _, _, _, _, _, _, entity⟩
  cases entity <;> exact ⟨rfl, rfl, rfl⟩

theorem modifyEnum (t : SymbolTable) (id : SymbolId) (f : EnumData → EnumData) :
    KeepsHeaders t (t.modifyEnum id f) := by
  refine modifySymbol ?_
  rcases hx : t.symbol id with ⟨_, _, _, _, _, _, _, _, entity⟩
  cases entity <;> exact ⟨rfl, rfl, rfl⟩

theorem modifyTemplate (t : SymbolTable) (id : SymbolId) {f : TemplateData → TemplateData}
    (h : ∀ data, (f data).parameters = data.parameters) :
    KeepsHeaders t (t.modifyTemplate id f) := by
  refine modifySymbol ?_
  rcases hx : t.symbol id with ⟨_, _, _, _, scope, _, _, _, entity⟩
  cases entity with
  | template data =>
    exact ⟨rfl, congrArg (fun ps => some (scope, ps)) (h data), rfl⟩
  | _ => exact ⟨rfl, rfl, rfl⟩

theorem markDefined (t : SymbolTable) (id : SymbolId) : KeepsHeaders t (t.markDefined id) :=
  modifySymbol ⟨rfl, rfl, rfl⟩

end KeepsHeaders

end SymbolTable

end TemplateAnalysis
