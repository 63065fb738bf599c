import TemplateAnalysis.Proofs.Session.NestedNames
import TemplateAnalysis.Proofs.SymbolTable.Arena

/-!
# Own scopes

A symbol gets its scope when it is declared: a namespace, a class or an enum a new one of its
kind, and a template its header. So the scope that belongs to a symbol has the symbol as its
owner, and the header of a template belongs to no other symbol.
-/

namespace TemplateAnalysis

namespace SymbolTable

variable {t u : SymbolTable}

def Owned (t : SymbolTable) : Prop :=
  ∀ id, t.HasSymbol id → ∀ own, (t.symbol id).scope = some own → (t.scope own).owner = some id

/-- A header belongs to a template, if to any symbol. -/
def HeadsTemplates (t : SymbolTable) : Prop :=
  ∀ id own, (t.symbol id).scope = some own → t.IsHeader own → (t.symbol id).kind = .template

inductive GivesScope (t : SymbolTable) (id : SymbolId) (own : ScopeId) : Prop
  | container (kind : ScopeKind) (kind_eq : ownScopeKind? (t.symbol id).kind = some kind)
      (fresh : t.scope own = .fresh kind (some id) (some (t.symbol id).enclosing))
  | template (kind_eq : (t.symbol id).kind = .template) (owner : (t.scope own).owner = some id)

theorem ownScopeKind?_ne_header {kind : SymbolKind} :
    ownScopeKind? kind ≠ some .templateHeader := by
  cases kind <;> exact nofun

theorem ownScope_pushSymbol (key : String) {x : Symbol} (hx : x.scope = none) {id : SymbolId}
    {own : ScopeId} (hown : ((t.pushSymbol key x).2.symbol id).scope = some own) :
    (t.symbol id).scope = some own := by
  rw [symbol_pushSymbol] at hown
  split at hown
  · rw [hx] at hown
    cases hown
  · exact hown

theorem ownScope_pushContainer {key : String} {x : Symbol} {kind : ScopeKind}
    (hx : ownScopeKind? x.kind = some kind) {id : SymbolId} {own : ScopeId}
    (hown : ((t.pushContainer key x kind).symbol id).scope = some own) :
    (t.symbol id).scope = some own ∨ (t.pushContainer key x kind).GivesScope id own := by
  rcases hasSymbol_pushContainer.mp (Arena.hasSymbol_of_owner hown) with hold | rfl
  · rw [symbol_pushContainer_old hold] at hown
    exact .inl hown
  · rw [symbol_pushContainer_new] at hown
    cases hown
    refine .inr (.container kind ?_ ?_)
    · rw [symbol_pushContainer_new]
      exact hx
    · rw [scope_pushContainer_new, symbol_pushContainer_new]

end SymbolTable

theorem Symbol.Edit.scope_eq {s : Session} {id : SymbolId} {x y : Symbol} {role : Session.Role}
    (h : Symbol.Edit s id x role y) : y.scope = x.scope := by
  cases h <;> rfl

namespace Session

variable {s u : Session}

/-- A symbol has the scope that it had, or gets it in the change. -/
theorem Change.ownScope {role : Role} (hs : s.Closed) (h : s.Change role u) {id : SymbolId}
    {own : ScopeId} (hown : (u.table.symbol id).scope = some own) :
    (s.table.symbol id).scope = some own ∨ u.table.GivesScope id own := by
  cases h with
  | enter | form => exact .inl hown
  | edit j f has edit =>
    rw [SymbolTable.symbol_modifySymbol] at hown
    split at hown
    · rename_i hj
      obtain ⟨rfl, _⟩ := hj
      exact .inl (edit.scope_eq ▸ hown)
    · exact .inl hown
  | introduce scope name entity span has closed unnamed introduced =>
    unfold SymbolTable.introduce at hown ⊢
    cases hkind : SymbolTable.ownScopeKind? entity.kind with
    | none =>
      rw [hkind] at hown
      exact .inl (SymbolTable.ownScope_pushSymbol name rfl hown)
    | some kind =>
      rw [hkind] at hown
      refine SymbolTable.ownScope_pushContainer ?_ hown
      exact hkind
  | overload scope name type signature keywords span table has known encoding eq =>
    obtain ⟨_, _, _, rfl⟩ := SymbolTable.declareOverload_eq eq
    exact .inl (SymbolTable.ownScope_pushSymbol name rfl hown)
  | register template data keyword args shown span =>
    exact SymbolTable.ownScope_pushContainer rfl hown
  | openHeader parameters valid known =>
    refine .inl ?_
    revert hown
    refine Closed.insertParameters_induction
      (motive := fun t => (t.symbol id).scope = some own → (s.table.symbol id).scope = some own) _
      (fun v hv hheader h index p _ hown => h (SymbolTable.ownScope_pushSymbol p.name rfl hown))
      (hs.pushHeader known) ((s.table.hasScope_pushScope _ _).mpr (.inr rfl)) fun hown => hown
  | template header enclosing name templated span table isOpen around unnamed eq =>
    -- Only the new template gets the header.
    obtain ⟨_, hnew⟩ := symbol_introduceTemplate eq
    by_cases hid : id = s.table.nextSymbol
    · subst hid
      rw [hnew] at hown
      cases hown
      refine .inr (.template ?_ ?_)
      · rw [hnew]
        rfl
      · exact (scope_introduceTemplate (SymbolTable.hasScope_of_enclosing around) eq).1
    · rw [symbol_introduceTemplate_of_ne eq hid] at hown
      exact .inl hown
  | adopt header own' existing isOpen scope =>
    have hexpose : SymbolTable.Extends (fun _ => False) s.table
      (s.table.aliasParameters header own') := .foldl_expose own' _ (.refl _)
    have hid := (hexpose.added id (SymbolTable.Arena.hasSymbol_of_owner hown)).resolve_right nofun
    exact .inl ((congrArg Symbol.scope (hexpose.old id hid)).symm.trans hown)
  | enumerate j data site name value span entity =>
    unfold EnumSite.insert at hown
    cases haround : site.around with
    | none =>
      rw [haround] at hown
      exact .inl (SymbolTable.ownScope_pushSymbol name rfl hown)
    | some scope =>
      rw [haround] at hown
      exact .inl (SymbolTable.ownScope_pushSymbol name rfl hown)

theorem Change.owned {role : Role} (hs : s.Closed) (h : s.Change role u)
    (howned : s.table.Owned) : u.table.Owned := by
  intro id _ own hown
  rcases h.ownScope hs hown with hold | hnew
  · have hid := SymbolTable.Arena.hasSymbol_of_owner hold
    have hgrown := (h.grows hs).table.scope own (hs.linked.symbol_scope_has id own hold)
    exact hgrown.owner id (howned id hid own hold)
  · cases hnew with
    | container kind kind_eq fresh =>
      rw [fresh]
      rfl
    | template kind_eq owner => exact owner

theorem Change.headsTemplates {role : Role} (hs : s.Closed) (h : s.Change role u)
    (hheads : s.table.HeadsTemplates) : u.table.HeadsTemplates := by
  intro id own hown hheader
  have hgrows := (h.grows hs).table
  rcases h.ownScope hs hown with hold | hnew
  · have hid := SymbolTable.Arena.hasSymbol_of_owner hold
    rw [(hgrows.symbol id hid).kind_eq]
    refine hheads id own hold ?_
    exact (SymbolTable.isHeader_of_grows hgrows (hs.linked.symbol_scope_has id own hold)).mp hheader
  · cases hnew with
    | container kind kind_eq fresh =>
      rw [SymbolTable.IsHeader, fresh] at hheader
      obtain rfl : kind = .templateHeader := hheader
      exact absurd kind_eq SymbolTable.ownScopeKind?_ne_header
    | template kind_eq owner => exact kind_eq

theorem isHeader_of_template {t : SymbolTable} (howned : t.Owned) (hplaced : t.Placed)
    {id : SymbolId} (hkind : (t.symbol id).kind = .template) {own : ScopeId}
    (hown : (t.symbol id).scope = some own) : t.IsHeader own := by
  have hid := SymbolTable.Arena.hasSymbol_of_owner hown
  by_contra hheader
  obtain ⟨hcontainer, _⟩ := hplaced.owner own id hheader (howned id hid own hown)
  exact hcontainer.kind_ne rfl hkind

theorem Run.owned {config : Config} (h : (start config).Run s) : s.table.Owned :=
  h.invariant (fun s => s.table.Owned) (.start config)
    (fun _ _ hv hchange howned => hchange.owned hv howned) (fun _ _ howned => howned)
    fun _ hid => absurd hid (Nat.not_lt_zero _)

theorem Run.headsTemplates {config : Config} (h : (start config).Run s) :
    s.table.HeadsTemplates :=
  h.invariant (fun s => s.table.HeadsTemplates) (.start config)
    (fun _ _ hv hchange hheads => hchange.headsTemplates hv hheads) (fun _ _ hheads => hheads)
    fun _ _ hown => by cases hown

end Session

end TemplateAnalysis
