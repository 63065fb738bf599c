import TemplateAnalysis.Proofs.SymbolTable.Additions
import TemplateAnalysis.Proofs.SymbolTable.Stability
import TemplateAnalysis.SymbolTable.Declaration

/-!
# Where symbols stand

Namespaces, classes and enums come with a scope of their own. In a `Placed` table every
one of them is bound in the scope it is declared in, no two are filed there under one
name, and every scope but the global one and template headers is that of one of them.
So outside of template headers the path of a symbol, its owners from the outside
followed by the symbol, leads back to it.
-/

namespace TemplateAnalysis

def Symbol.IsContainer (x : Symbol) : Prop := (SymbolTable.ownScopeKind? x.kind).isSome = true

theorem Symbol.Grows.isContainer_iff {x y : Symbol} (h : x.Grows y) :
    y.IsContainer ↔ x.IsContainer := by
  rw [Symbol.IsContainer, Symbol.IsContainer, h.kind_eq]

namespace SymbolTable

variable {t u v : SymbolTable}

def IsHeader (t : SymbolTable) (scope : ScopeId) : Prop :=
  (t.scope scope).kind = .templateHeader

instance (t : SymbolTable) (scope : ScopeId) : Decidable (t.IsHeader scope) :=
  inferInstanceAs (Decidable ((t.scope scope).kind = .templateHeader))

theorem isHeader_of_grows (h : t.Grows u) {scope : ScopeId} (hscope : t.HasScope scope) :
    u.IsHeader scope ↔ t.IsHeader scope := by
  rw [IsHeader, IsHeader, (h.scope scope hscope).kind]

/-- What is known of the symbols with a scope of their own, and of the scopes. -/
structure Placed (t : SymbolTable) : Prop where
  filed : ∀ id, t.HasSymbol id → (t.symbol id).IsContainer →
    ((t.symbol id).filedAs, id) ∈ (t.scope (t.symbol id).enclosing).bindings
  unique : ∀ y z, t.HasSymbol y → t.HasSymbol z → (t.symbol y).IsContainer →
    (t.symbol z).IsContainer → (t.symbol y).enclosing = (t.symbol z).enclosing →
    (t.symbol y).filedAs = (t.symbol z).filedAs →
    (t.symbol y).origin?.isSome = (t.symbol z).origin?.isSome → y = z
  owner : ∀ scope o, ¬ t.IsHeader scope → (t.scope scope).owner = some o →
    (t.symbol o).IsContainer ∧ (t.symbol o).scope = some scope ∧
      (t.scope scope).enclosing = some (t.symbol o).enclosing
  owned : ∀ scope, t.HasScope scope → ¬ t.IsHeader scope → (t.scope scope).owner = none →
    scope = .global
  global_root : ¬ t.IsHeader .global ∧ (t.scope .global).owner = none ∧
    (t.scope .global).enclosing = none

structure AddsAside (t u : SymbolTable) : Prop where
  grows : t.Grows u
  symbol : ∀ id, u.HasSymbol id → t.HasSymbol id ∨ ¬ (u.symbol id).IsContainer
  scope : ∀ id, u.HasScope id → t.HasScope id ∨ u.IsHeader id

namespace AddsAside

theorem refl (t : SymbolTable) : AddsAside t t :=
  ⟨.refl t, fun _ h => .inl h, fun _ h => .inl h⟩

theorem trans (htu : AddsAside t u) (huv : AddsAside u v) : AddsAside t v where
  grows := htu.grows.trans huv.grows
  symbol id h := by
    rcases huv.symbol id h with hu | hu
    · exact (htu.symbol id hu).imp_right
        (mt (huv.grows.symbol id hu).isContainer_iff.mp)
    · exact .inr hu
  scope id h := by
    rcases huv.scope id h with hu | hu
    · exact (htu.scope id hu).imp_right (isHeader_of_grows huv.grows hu).mpr
    · exact .inr hu

theorem pushSymbol (t : SymbolTable) (key : String) {x : Symbol} (hx : ¬ x.IsContainer) :
    AddsAside t (t.pushSymbol key x).2 where
  grows := .pushSymbol t key x
  symbol id h := by
    rw [symbol_pushSymbol]
    rcases (t.hasSymbol_pushSymbol key x id).mp h with h | rfl
    · exact .inl h
    · exact .inr (by rwa [if_pos rfl])
  scope id h := .inl ((t.hasScope_pushSymbol key x id).mp h)

theorem modifySymbol {id : SymbolId} {f : Symbol → Symbol}
    (h : t.HasSymbol id → (t.symbol id).Grows (f (t.symbol id))) :
    AddsAside t (t.modifySymbol id f) where
  grows := .modifySymbol h
  symbol j hj := .inl ((t.hasSymbol_modifySymbol id j f).mp hj)
  scope _ hj := .inl hj

theorem modifyScope {id : ScopeId} {f : Scope → Scope}
    (h : t.HasScope id → (t.scope id).Grows (f (t.scope id))) :
    AddsAside t (t.modifyScope id f) where
  grows := .modifyScope h
  symbol _ hj := .inl hj
  scope j hj := .inl ((t.hasScope_modifyScope id j f).mp hj)

theorem pushScope (t : SymbolTable) {x : Scope} (hx : x.kind = .templateHeader) :
    AddsAside t (t.pushScope x).2 where
  grows := .pushScope t x
  symbol _ hj := .inl hj
  scope j hj := by
    rw [IsHeader, scope_pushScope]
    rcases (t.hasScope_pushScope x j).mp hj with hj | rfl
    · exact .inl hj
    · exact .inr (by rwa [if_pos rfl])

end AddsAside

namespace Placed

theorem initial : SymbolTable.initial.Placed where
  filed id hid := absurd hid (Nat.not_lt_zero _)
  unique y _ hy := absurd hy (Nat.not_lt_zero _)
  owner scope o _ ho := by
    obtain ⟨i⟩ := scope
    cases i <;> cases ho
  owned scope hscope _ _ := by
    obtain ⟨i⟩ := scope
    obtain rfl : i = 0 := Nat.lt_one_iff.mp hscope
    rfl
  global_root := ⟨by decide, rfl, rfl⟩

theorem filed_grows (ht : t.Linked) (h : t.Placed) (hgrows : t.Grows u) {id : SymbolId}
    (hid : t.HasSymbol id) (hcontainer : (t.symbol id).IsContainer) :
    ((u.symbol id).filedAs, id) ∈ (u.scope (u.symbol id).enclosing).bindings := by
  have hsymbol := hgrows.symbol id hid
  rw [hsymbol.filedAs_eq, hsymbol.enclosing]
  exact (hgrows.scope _ (ht.symbol_enclosing_has id hid)).bindings.mem (h.filed id hid hcontainer)

theorem owner_grows (ht : t.Linked) (h : t.Placed) (hgrows : t.Grows u) {scope : ScopeId}
    {o : SymbolId} (hscope : t.HasScope scope) (hheader : ¬ u.IsHeader scope)
    (ho : (u.scope scope).owner = some o) :
    (u.symbol o).IsContainer ∧ (u.symbol o).scope = some scope ∧
      (u.scope scope).enclosing = some (u.symbol o).enclosing := by
  rw [isHeader_of_grows hgrows hscope] at hheader
  have hgrown := hgrows.scope scope hscope
  rw [hgrown.owner_eq hheader] at ho
  obtain ⟨hcontainer, hown, henclosing⟩ := h.owner scope o hheader ho
  have hsymbol := hgrows.symbol o (ht.owner_has scope o ho)
  refine ⟨hsymbol.isContainer_iff.mpr hcontainer, hsymbol.scope _ hown, ?_⟩
  rw [hgrown.enclosing, henclosing, hsymbol.enclosing]

theorem unique_grows (h : t.Placed) (hgrows : t.Grows u) {y z : SymbolId} (hy : t.HasSymbol y)
    (hz : t.HasSymbol z) (hy' : (u.symbol y).IsContainer) (hz' : (u.symbol z).IsContainer)
    (henclosing : (u.symbol y).enclosing = (u.symbol z).enclosing)
    (hfiled : (u.symbol y).filedAs = (u.symbol z).filedAs)
    (horigin : (u.symbol y).origin?.isSome = (u.symbol z).origin?.isSome) : y = z := by
  have hsymbol := hgrows.symbol y hy
  have hsymbol' := hgrows.symbol z hz
  rw [hsymbol.enclosing, hsymbol'.enclosing] at henclosing
  rw [hsymbol.filedAs_eq, hsymbol'.filedAs_eq] at hfiled
  rw [hsymbol.origin?_eq, hsymbol'.origin?_eq] at horigin
  exact h.unique y z hy hz (hsymbol.isContainer_iff.mp hy') (hsymbol'.isContainer_iff.mp hz')
    henclosing hfiled horigin

theorem global_root_grows (ht : t.Linked) (h : t.Placed) (hgrows : t.Grows u) :
    ¬ u.IsHeader .global ∧ (u.scope .global).owner = none ∧
      (u.scope .global).enclosing = none := by
  obtain ⟨hheader, howner, henclosing⟩ := h.global_root
  have hgrown := hgrows.scope .global ht.global_has
  refine ⟨mt (isHeader_of_grows hgrows ht.global_has).mp hheader, ?_, ?_⟩
  · rw [hgrown.owner_eq hheader, howner]
  · rw [hgrown.enclosing, henclosing]

/-- What is added aside leaves a table placed. -/
theorem of_addsAside (ht : t.Linked) (h : t.Placed) (hadds : AddsAside t u) : u.Placed where
  filed id hid hcontainer := by
    have hold := (hadds.symbol id hid).resolve_right (not_not.mpr hcontainer)
    exact h.filed_grows ht hadds.grows hold
      ((hadds.grows.symbol id hold).isContainer_iff.mp hcontainer)
  unique y z hy hz hy' hz' := by
    have hold := (hadds.symbol y hy).resolve_right (not_not.mpr hy')
    have hold' := (hadds.symbol z hz).resolve_right (not_not.mpr hz')
    exact h.unique_grows hadds.grows hold hold' hy' hz'
  owner scope o hheader ho := by
    by_cases hscope : u.HasScope scope
    · have hold := (hadds.scope scope hscope).resolve_right hheader
      exact h.owner_grows ht hadds.grows hold hheader ho
    · rw [scope_eq_default hscope] at ho
      cases ho
  owned scope hscope hheader ho := by
    have hold := (hadds.scope scope hscope).resolve_right hheader
    rw [isHeader_of_grows hadds.grows hold] at hheader
    have howner := (hadds.grows.scope scope hold).owner_eq hheader
    exact h.owned scope hold hheader (howner.symm.trans ho)
  global_root := h.global_root_grows ht hadds.grows

end Placed

/-! ### New symbols with a scope of their own -/

def pushContainer (t : SymbolTable) (key : String) (x : Symbol) (kind : ScopeKind) :
    SymbolTable :=
  (t.pushSymbol key x).2.pushOwnScope t.nextSymbol kind x.enclosing

section PushContainer

variable {key : String} {x : Symbol} {kind : ScopeKind}

theorem nextScope_pushSymbol (t : SymbolTable) (key : String) (x : Symbol) :
    (t.pushSymbol key x).2.nextScope = t.nextScope := by
  simp [nextScope, scopeCount, pushSymbol, modifyScope]

theorem grows_pushContainer (hscope : x.scope = none) : t.Grows (t.pushContainer key x kind) :=
  (Grows.pushSymbol t key x).trans
    (.pushOwnScope ((congrArg Symbol.scope (t.symbol_pushSymbol key x _)).trans
      ((congrArg Symbol.scope (if_pos rfl)).trans hscope)) kind x.enclosing)

theorem hasSymbol_pushContainer {id : SymbolId} :
    (t.pushContainer key x kind).HasSymbol id ↔ t.HasSymbol id ∨ id = t.nextSymbol := by
  rw [pushContainer, pushOwnScope, hasSymbol_modifySymbol, hasSymbol_pushScope,
    hasSymbol_pushSymbol]

theorem hasScope_pushContainer {id : ScopeId} :
    (t.pushContainer key x kind).HasScope id ↔ t.HasScope id ∨ id = t.nextScope := by
  rw [pushContainer, pushOwnScope, hasScope_modifySymbol, hasScope_pushScope,
    hasScope_pushSymbol, nextScope_pushSymbol]

theorem symbol_pushContainer_new :
    (t.pushContainer key x kind).symbol t.nextSymbol = { x with scope := some t.nextScope } := by
  have hnew : ((t.pushSymbol key x).2.pushScope
      (.fresh kind (some t.nextSymbol) (some x.enclosing))).2.HasSymbol t.nextSymbol :=
    (t.hasSymbol_pushSymbol key x _).mpr (.inr rfl)
  rw [pushContainer, pushOwnScope, symbol_modifySymbol_self _ hnew, symbol_pushScope,
    symbol_pushSymbol, if_pos rfl, pushScope_fst, nextScope_pushSymbol]

theorem symbol_pushContainer_old {id : SymbolId} (hid : t.HasSymbol id) :
    (t.pushContainer key x kind).symbol id = t.symbol id := by
  have hne : id ≠ t.nextSymbol := by
    rintro rfl
    exact t.not_hasSymbol_nextSymbol hid
  rw [pushContainer, pushOwnScope, symbol_modifySymbol, if_neg fun h => hne h.1, symbol_pushScope,
    symbol_pushSymbol, if_neg hne]

theorem scope_pushContainer_new :
    (t.pushContainer key x kind).scope t.nextScope =
      .fresh kind (some t.nextSymbol) (some x.enclosing) := by
  rw [pushContainer, pushOwnScope, scope_modifySymbol, scope_pushScope, nextScope_pushSymbol,
    if_pos rfl]

theorem mem_bindings_pushContainer (hscope : t.HasScope x.enclosing) :
    (key, t.nextSymbol) ∈ ((t.pushContainer key x kind).scope x.enclosing).bindings := by
  have hgrows : (t.pushSymbol key x).2.Grows ((t.pushSymbol key x).2.pushScope
      (.fresh kind (some t.nextSymbol) (some x.enclosing))).2 := .pushScope _ _
  have hhas : (t.pushSymbol key x).2.HasScope x.enclosing :=
    (t.hasScope_pushSymbol key x _).mpr hscope
  refine (hgrows.scope _ hhas).bindings.mem ?_
  rw [scope_pushSymbol, if_pos ⟨rfl, hscope⟩]
  exact List.mem_append_right _ (List.mem_singleton.mpr rfl)

/-- A new symbol under a name that is free leaves a table placed. -/
theorem Placed.pushContainer (ht : t.Linked) (h : t.Placed) (hscope : x.scope = none)
    (henclosing : t.HasScope x.enclosing) (hx : x.IsContainer) (hkey : key = x.filedAs)
    (hfree : ∀ y, t.HasSymbol y → (t.symbol y).IsContainer → (t.symbol y).enclosing = x.enclosing →
      (t.symbol y).filedAs = x.filedAs → (t.symbol y).origin?.isSome ≠ x.origin?.isSome) :
    (t.pushContainer key x kind).Placed := by
  have hgrows : t.Grows (t.pushContainer key x kind) := grows_pushContainer hscope
  have hnew : (t.pushContainer key x kind).symbol t.nextSymbol =
      { x with scope := some t.nextScope } := symbol_pushContainer_new
  refine ⟨fun id hid hcontainer => ?_, fun y z hy hz hy' hz' henc hfiled horigin => ?_,
    fun scope o hheader ho => ?_, fun scope hhas hheader ho => ?_, h.global_root_grows ht hgrows⟩
  · rcases hasSymbol_pushContainer.mp hid with hold | rfl
    · exact h.filed_grows ht hgrows hold ((hgrows.symbol id hold).isContainer_iff.mp hcontainer)
    · rw [hnew]
      exact hkey ▸ mem_bindings_pushContainer henclosing
  · rcases hasSymbol_pushContainer.mp hy with hold | rfl <;>
      rcases hasSymbol_pushContainer.mp hz with hold' | rfl
    · exact h.unique_grows hgrows hold hold' hy' hz' henc hfiled horigin
    · rw [hnew, symbol_pushContainer_old hold] at henc hfiled horigin
      rw [symbol_pushContainer_old hold] at hy'
      exact absurd horigin (hfree y hold hy' henc hfiled)
    · rw [hnew, symbol_pushContainer_old hold'] at henc hfiled horigin
      rw [symbol_pushContainer_old hold'] at hz'
      exact absurd horigin.symm (hfree z hold' hz' henc.symm hfiled.symm)
    · rfl
  · by_cases hhas : (t.pushContainer key x kind).HasScope scope
    · rcases hasScope_pushContainer.mp hhas with hold | rfl
      · exact h.owner_grows ht hgrows hold hheader ho
      · rw [scope_pushContainer_new] at ho ⊢
        cases ho
        rw [hnew]
        exact ⟨hx, rfl, rfl⟩
    · rw [scope_eq_default hhas] at ho
      cases ho
  · rcases hasScope_pushContainer.mp hhas with hold | rfl
    · rw [isHeader_of_grows hgrows hold] at hheader
      exact h.owned scope hold hheader (((hgrows.scope scope hold).owner_eq hheader).symm.trans ho)
    · rw [scope_pushContainer_new] at ho
      cases ho

end PushContainer

/-! ### Paths -/

/-- Looking further out than the number of a scope finds no more scopes. -/
theorem scopesWithin_eq (ht : t.Linked) : ∀ (depth : Nat) {scope : ScopeId}, scope.index ≤ depth →
    t.scopesWithin depth scope = t.enclosingScopes scope
  | 0, scope, h => by
    rw [enclosingScopes, Nat.le_zero.mp h]
  | depth + 1, scope, h => by
    rw [scopesWithin, enclosingScopes]
    cases he : (t.scope scope).enclosing with
    | none =>
      cases hindex : scope.index with
      | zero => rfl
      | succ n => rw [scopesWithin, he]
    | some e =>
      have hlt := ht.enclosing_lt scope e he
      obtain ⟨n, hn⟩ : ∃ n, scope.index = n + 1 := ⟨scope.index - 1, by omega⟩
      rw [hn, scopesWithin, he]
      simp only
      rw [scopesWithin_eq ht depth (by omega), scopesWithin_eq ht n (by omega)]
termination_by depth => depth

theorem enclosingScopes_eq (ht : t.Linked) (scope : ScopeId) :
    t.enclosingScopes scope =
      scope :: ((t.scope scope).enclosing.map t.enclosingScopes).getD [] := by
  cases he : (t.scope scope).enclosing with
  | none =>
    rw [enclosingScopes]
    cases scope.index with
    | zero => rfl
    | succ n => rw [scopesWithin, he]; rfl
  | some e =>
    have hlt := ht.enclosing_lt scope e he
    obtain ⟨n, hn⟩ : ∃ n, scope.index = n + 1 := ⟨scope.index - 1, by omega⟩
    rw [enclosingScopes, hn, scopesWithin, he]
    simp only
    rw [scopesWithin_eq ht n (by omega)]
    rfl

theorem ownerChain_eq (ht : t.Linked) (scope : ScopeId) :
    t.ownerChain scope = (((t.scope scope).enclosing.map t.ownerChain).getD []) ++
      if t.IsHeader scope then [] else (t.scope scope).owner.toList := by
  rw [ownerChain, enclosingScopes_eq ht, List.filterMap_cons]
  by_cases hkind : (t.scope scope).kind = .templateHeader <;>
    cases he : (t.scope scope).enclosing <;> cases ho : (t.scope scope).owner <;>
      simp [hkind, IsHeader, ownerChain]

theorem ownerChain_of_enclosing (ht : t.Linked) {scope e : ScopeId}
    (he : (t.scope scope).enclosing = some e) :
    t.ownerChain scope = t.ownerChain e ++
      if t.IsHeader scope then [] else (t.scope scope).owner.toList := by
  rw [ownerChain_eq ht, he]
  rfl

theorem ownerChain_global (h : t.Placed) : t.ownerChain .global = [] := by
  obtain ⟨_, howner, _⟩ := h.global_root
  have hscopes : t.enclosingScopes .global = [.global] := rfl
  rw [ownerChain, hscopes]
  simp [howner]

/-- The owners of a symbol from the outside, and the symbol. -/
def path (t : SymbolTable) (id : SymbolId) : List SymbolId :=
  t.ownerChain (t.symbol id).enclosing ++ [id]

theorem path_inj {y z : SymbolId} (h : t.path y = t.path z) : y = z :=
  (List.append_inj' h rfl).2 |> List.singleton_inj.mp

/-- What stands on the path of a symbol with a scope of its own has one as well. -/
theorem Placed.mem_path (ht : t.Linked) (h : t.Placed) {id o : SymbolId} (hid : t.HasSymbol id)
    (hcontainer : (t.symbol id).IsContainer) (ho : o ∈ t.path id) :
    t.HasSymbol o ∧ (t.symbol o).IsContainer := by
  rcases List.mem_append.mp ho with ho | ho
  · refine ⟨mem_ownerChain_has ht ho, ?_⟩
    obtain ⟨scope, _, hscope⟩ := List.mem_filterMap.mp (List.mem_reverse.mp ho)
    split at hscope
    · cases hscope
    · exact (h.owner scope o ‹_› hscope).1
  · rw [List.mem_singleton.mp ho]
    exact ⟨hid, hcontainer⟩

/-- The owners of a scope that is no header are the path of its own owner, if it has one. -/
theorem Placed.ownerChain_cases (ht : t.Linked) (h : t.Placed) {scope : ScopeId}
    (hscope : t.HasScope scope) (hheader : ¬ t.IsHeader scope) :
    (scope = .global ∧ t.ownerChain scope = []) ∨
      ∃ o, t.HasSymbol o ∧ (t.symbol o).IsContainer ∧ (t.symbol o).scope = some scope ∧
        t.ownerChain scope = t.path o := by
  cases ho : (t.scope scope).owner with
  | none =>
    obtain rfl := h.owned scope hscope hheader ho
    exact .inl ⟨rfl, ownerChain_global h⟩
  | some o =>
    obtain ⟨hcontainer, hown, henclosing⟩ := h.owner scope o hheader ho
    refine .inr ⟨o, ht.owner_has scope o ho, hcontainer, hown, ?_⟩
    rw [ownerChain_of_enclosing ht henclosing, if_neg hheader, ho]
    rfl

/-- The owners of a scope are the path of the innermost of them. -/
theorem Placed.ownerChain_eq_path (ht : t.Linked) (h : t.Placed) {scope : ScopeId}
    (hscope : t.HasScope scope) :
    t.ownerChain scope = [] ∨
      ∃ o, t.HasSymbol o ∧ (t.symbol o).IsContainer ∧ t.ownerChain scope = t.path o := by
  obtain ⟨n, hn⟩ : ∃ n, scope.index = n := ⟨_, rfl⟩
  induction n using Nat.strongRecOn generalizing scope with
  | ind n ih =>
    by_cases hheader : t.IsHeader scope
    · cases he : (t.scope scope).enclosing with
      | none =>
        left
        have hscopes : t.enclosingScopes scope = [scope] := by
          rw [enclosingScopes_eq ht, he]
          rfl
        rw [ownerChain, hscopes]
        simp [show (t.scope scope).kind = .templateHeader from hheader]
      | some e =>
        rw [ownerChain_of_enclosing ht he, if_pos hheader, List.append_nil]
        exact ih e.index (by have := ht.enclosing_lt scope e he; omega) (ht.enclosing_has he) rfl
    · rcases h.ownerChain_cases ht hscope hheader with ⟨_, hnil⟩ | ⟨o, ho, hcontainer, _, hpath⟩
      · exact .inl hnil
      · exact .inr ⟨o, ho, hcontainer, hpath⟩

/-- Scopes that are no headers and have the same owners are the same. -/
theorem Placed.scope_eq (ht : t.Linked) (h : t.Placed) {e e' : ScopeId} (he : t.HasScope e)
    (he' : t.HasScope e') (hheader : ¬ t.IsHeader e) (hheader' : ¬ t.IsHeader e')
    (hchain : t.ownerChain e = t.ownerChain e') : e = e' := by
  have hpath : ∀ o, t.path o ≠ [] := fun o => by simp [path]
  rcases h.ownerChain_cases ht he hheader with ⟨rfl, hnil⟩ | ⟨o, _, _, hown, hchain_o⟩ <;>
    rcases h.ownerChain_cases ht he' hheader' with ⟨rfl, hnil'⟩ | ⟨p, _, _, hown', hchain_p⟩
  · rfl
  · exact absurd (hchain_p.symm.trans (hchain.symm.trans hnil)) (hpath p)
  · exact absurd (hchain_o.symm.trans (hchain.trans hnil')) (hpath o)
  · obtain rfl := path_inj (hchain_o.symm.trans (hchain.trans hchain_p))
    exact Option.some.inj (hown.symm.trans hown')

end SymbolTable

end TemplateAnalysis
