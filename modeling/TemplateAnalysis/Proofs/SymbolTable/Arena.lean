import Mathlib.Logic.Relation
import TemplateAnalysis.Proofs.SymbolTable.Stability
import TemplateAnalysis.SymbolTable.Declaration
import TemplateAnalysis.SymbolTable.Outline

/-!
# The links of a symbol table

Symbols are declared in scopes, and may own one. `Step` lists the elementary changes of a
table, and `Arena` says how its links agree: every scope but the global one stands inside
of another, lists the symbols that are declared in it, each of them once and in the order
of their numbers, and a scope belongs to the symbol that it is the scope of, which is
declared right around it. Every step keeps this.

So scopes form a tree in two ways, by what stands around them and by what is declared in
them, and whoever walks it comes to an end.
-/

namespace TemplateAnalysis.SymbolTable

variable {t u : SymbolTable}

/-- Whether a symbol may be bound in a scope: only enumerators are visible in scopes that
they are not declared in. -/
structure MayBind (t : SymbolTable) (scope : ScopeId) (id : SymbolId) : Prop where
  has : t.HasSymbol id
  place : (t.symbol id).enclosing = scope ∨ (t.symbol id).kind = .enumerator

/-- The elementary changes of a table. -/
inductive Step (t : SymbolTable) : SymbolTable → Prop
  /-- A symbol is completed in its place. -/
  | complete (id : SymbolId) (f : Symbol → Symbol) (grows : (t.symbol id).Grows (f (t.symbol id)))
      (scope : (f (t.symbol id)).scope = (t.symbol id).scope) : Step t (t.modifySymbol id f)
  /-- A symbol is declared, as yet without a scope of its own. -/
  | declare (key : String) (x : Symbol) (has : t.HasScope x.enclosing) (scope : x.scope = none) :
      Step t (t.pushSymbol key x).2
  /-- A symbol gets a new scope. -/
  | open (id : SymbolId) (kind : ScopeKind) (has : t.HasSymbol id)
      (unscoped : (t.symbol id).scope = none) :
      Step t (t.pushOwnScope id kind (t.symbol id).enclosing)
  /-- The header of a template is opened, which nobody owns. -/
  | openHeader (around : ScopeId) (parameters : ParameterList) :
      Step t (t.pushScope
        { Scope.fresh .templateHeader none (some around) with pending := some parameters }).2
  /-- A symbol gets a header for its scope. -/
  | claim (id : SymbolId) (header : ScopeId) (has : t.HasSymbol id)
      (unscoped : (t.symbol id).scope = none) (unowned : (t.scope header).owner = none)
      (inside : (t.scope header).enclosing = some (t.symbol id).enclosing) :
      Step t ((t.modifySymbol id fun s => { s with scope := some header }).modifyScope header
        fun s => { s with owner := some id })
  | expose (scope : ScopeId) (name : String) (id : SymbolId) (may : t.MayBind scope id) :
      Step t (t.expose scope name id)
  | settle (header : ScopeId) : Step t (t.settleHeader header)

abbrev Steps : SymbolTable → SymbolTable → Prop := Relation.ReflTransGen Step

/-- How the links between symbols and scopes agree. -/
structure Arena (t : SymbolTable) : Prop where
  enclosed : ∀ scope, t.HasScope scope → scope ≠ .global →
    ∃ around, (t.scope scope).enclosing = some around
  declared : ∀ scope id,
    id ∈ (t.scope scope).declared ↔ t.HasSymbol id ∧ (t.symbol id).enclosing = scope
  increasing : ∀ scope, (t.scope scope).declared.Pairwise fun y z => y.index < z.index
  owner : ∀ id scope, (t.symbol id).scope = some scope ↔ (t.scope scope).owner = some id
  inside : ∀ id own, (t.symbol id).scope = some own →
    (t.scope own).enclosing = some (t.symbol id).enclosing
  bound : ∀ scope, ∀ b ∈ (t.scope scope).bindings, t.MayBind scope b.2

theorem pushOwnScope_eq (t : SymbolTable) (id : SymbolId) (kind : ScopeKind) (around : ScopeId) :
    t.pushOwnScope id kind around =
      ((t.pushScope (.fresh kind none (some around))).2.modifySymbol id
        fun s => { s with scope := some t.nextScope }).modifyScope t.nextScope
          fun s => { s with owner := some id } := by
  have hscopes : (t.scopes.push (.fresh kind none (some around))).modify t.scopes.size
      (fun s => { s with owner := some id }) =
      t.scopes.push (.fresh kind (some id) (some around)) := by
    refine Array.ext (by simp) fun i hi _ => ?_
    by_cases hnew : i = t.scopes.size
    · simp [hnew, Scope.fresh, Array.getElem_modify]
    · have hlt : i < t.scopes.size := by
        rw [Array.size_modify, Array.size_push] at hi
        omega
      simp [Array.getElem_modify, Array.getElem_push, hlt, Ne.symm hnew]
  exact congrArg (SymbolTable.mk _) hscopes.symm

namespace Arena

theorem initial : initial.Arena where
  enclosed scope hscope hne := by
    obtain ⟨i⟩ := scope
    obtain rfl : i = 0 := Nat.lt_one_iff.mp hscope
    exact absurd rfl hne
  declared scope id := by
    obtain ⟨i⟩ := scope
    refine ⟨fun h => ?_, fun h => absurd h.1 (Nat.not_lt_zero _)⟩
    cases i <;> cases h
  increasing scope := by
    obtain ⟨i⟩ := scope
    cases i <;> exact .nil
  owner id scope := by
    obtain ⟨i⟩ := scope
    cases i <;> exact ⟨nofun, nofun⟩
  inside id own h := by cases h
  bound scope b hb := by
    obtain ⟨i⟩ := scope
    cases i <;> cases hb

/-- Only symbols of the table are declared in a scope, so a scope that the table does not have
is around none of them. -/
theorem enclosing_ne_nextScope (h : t.Arena) {id : SymbolId} (hid : t.HasSymbol id) :
    (t.symbol id).enclosing ≠ t.nextScope := by
  intro henclosing
  have hmem := (h.declared t.nextScope id).mpr ⟨hid, henclosing⟩
  rw [scope_eq_default t.not_hasScope_nextScope] at hmem
  cases hmem

theorem mayBind_of_named (h : t.Arena) {scope : ScopeId} {name : String} {id : SymbolId}
    (hid : id ∈ (t.scope scope).named name) : t.MayBind scope id := by
  obtain ⟨b, hb, rfl⟩ := List.mem_map.mp hid
  exact h.bound scope b (List.mem_of_mem_filter hb)

theorem hasSymbol_of_owner {id : SymbolId} {scope : ScopeId}
    (hscope : (t.symbol id).scope = some scope) : t.HasSymbol id := by
  by_contra hid
  rw [symbol_eq_default hid] at hscope
  cases hscope

/-- Where no symbol and no scope gets another place, bindings are all that counts. -/
theorem of_places (h : t.Arena) (hhas : ∀ id, u.HasSymbol id ↔ t.HasSymbol id)
    (hhas' : ∀ scope, u.HasScope scope ↔ t.HasScope scope)
    (henclosing : ∀ id, (u.symbol id).enclosing = (t.symbol id).enclosing)
    (hscope : ∀ id, (u.symbol id).scope = (t.symbol id).scope)
    (hkind : ∀ id, (u.symbol id).kind = (t.symbol id).kind)
    (henclosing' : ∀ scope, (u.scope scope).enclosing = (t.scope scope).enclosing)
    (howner : ∀ scope, (u.scope scope).owner = (t.scope scope).owner)
    (hdeclared : ∀ scope, (u.scope scope).declared = (t.scope scope).declared)
    (hbound : ∀ scope, ∀ b ∈ (u.scope scope).bindings,
      b ∈ (t.scope scope).bindings ∨ t.MayBind scope b.2) : u.Arena where
  enclosed scope hscope hne := by
    rw [henclosing']
    exact h.enclosed scope ((hhas' scope).mp hscope) hne
  declared scope id := by
    rw [hdeclared, hhas, henclosing]
    exact h.declared scope id
  increasing scope := by
    rw [hdeclared]
    exact h.increasing scope
  owner id scope := by
    rw [hscope, howner]
    exact h.owner id scope
  inside id own hown := by
    rw [hscope] at hown
    rw [henclosing', henclosing]
    exact h.inside id own hown
  bound scope b hb := by
    obtain ⟨hhas'', hplace⟩ := (hbound scope b hb).elim (h.bound scope b) id
    exact ⟨(hhas b.2).mpr hhas'', by rwa [henclosing, hkind]⟩

theorem complete (h : t.Arena) {id : SymbolId} {f : Symbol → Symbol}
    (hgrows : (t.symbol id).Grows (f (t.symbol id)))
    (hscope : (f (t.symbol id)).scope = (t.symbol id).scope) : (t.modifySymbol id f).Arena := by
  have hplace : ∀ j, ((t.modifySymbol id f).symbol j).enclosing = (t.symbol j).enclosing ∧
      ((t.modifySymbol id f).symbol j).scope = (t.symbol j).scope ∧
      ((t.modifySymbol id f).symbol j).kind = (t.symbol j).kind := by
    intro j
    rw [symbol_modifySymbol]
    split
    · rename_i hj
      obtain ⟨rfl, _⟩ := hj
      exact ⟨hgrows.enclosing, hscope, hgrows.kind_eq⟩
    · exact ⟨rfl, rfl, rfl⟩
  exact h.of_places (fun j => t.hasSymbol_modifySymbol id j f) (fun _ => .rfl)
    (fun j => (hplace j).1) (fun j => (hplace j).2.1) (fun j => (hplace j).2.2) (fun _ => rfl)
    (fun _ => rfl) (fun _ => rfl) fun _ _ hb => .inl hb

theorem modifyScope (h : t.Arena) {id : ScopeId} {f : Scope → Scope}
    (henclosing : ∀ x, (f x).enclosing = x.enclosing) (howner : ∀ x, (f x).owner = x.owner)
    (hdeclared : ∀ x, (f x).declared = x.declared)
    (hbound : ∀ b ∈ (f (t.scope id)).bindings, b ∈ (t.scope id).bindings ∨ t.MayBind id b.2) :
    (t.modifyScope id f).Arena := by
  have hscope := fun scope => scope_modifyScope t id scope f
  refine h.of_places (fun _ => .rfl) (fun scope => t.hasScope_modifyScope id scope f)
    (fun _ => rfl) (fun _ => rfl) (fun _ => rfl) (fun scope => ?_) (fun scope => ?_)
    (fun scope => ?_) fun scope b hb => ?_
  · rw [hscope]
    split
    · exact henclosing _
    · rfl
  · rw [hscope]
    split
    · exact howner _
    · rfl
  · rw [hscope]
    split
    · exact hdeclared _
    · rfl
  · rw [hscope] at hb
    split at hb
    · rename_i hid
      obtain ⟨rfl, _⟩ := hid
      exact hbound b hb
    · exact .inl hb

theorem expose (h : t.Arena) {scope : ScopeId} (name : String) {id : SymbolId}
    (hmay : t.MayBind scope id) : (t.expose scope name id).Arena := by
  have hsplit : ∀ x : Scope, (x.expose name id).enclosing = x.enclosing ∧
      (x.expose name id).owner = x.owner := by
    intro x
    unfold Scope.expose
    split <;> exact ⟨rfl, rfl⟩
  refine h.modifyScope (fun x => (hsplit x).1) (fun x => (hsplit x).2)
    (fun x => x.declared_expose name id) fun b hb => ?_
  unfold Scope.expose at hb
  split at hb
  · exact .inl hb
  · refine (List.mem_append.mp hb).imp_right fun hb => ?_
    rw [List.mem_singleton.mp hb]
    exact hmay

theorem declare (h : t.Arena) {key : String} {x : Symbol} (hhas : t.HasScope x.enclosing)
    (hscope : x.scope = none) : (t.pushSymbol key x).2.Arena := by
  have hsymbol := t.symbol_pushSymbol key x
  have hscopes := t.scope_pushSymbol key x
  have hne : ∀ {id}, t.HasSymbol id → id ≠ t.nextSymbol := by
    rintro id hid rfl
    exact t.not_hasSymbol_nextSymbol hid
  have hold : ∀ {id own}, ((t.pushSymbol key x).2.symbol id).scope = some own →
      (t.symbol id).scope = some own ∧ (t.pushSymbol key x).2.symbol id = t.symbol id := by
    intro id own hown
    rw [hsymbol] at hown ⊢
    split at hown
    · rw [hscope] at hown
      cases hown
    · rename_i hid
      exact ⟨hown, if_neg hid⟩
  have hkeeps : ∀ scope,
      ((t.pushSymbol key x).2.scope scope).enclosing = (t.scope scope).enclosing ∧
      ((t.pushSymbol key x).2.scope scope).owner = (t.scope scope).owner := by
    intro scope
    rw [hscopes]
    split <;> exact ⟨rfl, rfl⟩
  refine
    { enclosed := fun scope hscope hne => ?enclosed
      declared := fun scope id => ?declared
      increasing := fun scope => ?increasing
      owner := fun id scope => ?owner
      inside := fun id own hown => ?inside
      bound := fun scope b hb => ?bound }
  case enclosed =>
    rw [(hkeeps scope).1]
    exact h.enclosed scope ((t.hasScope_pushSymbol key x scope).mp hscope) hne
  case declared =>
    rw [hasSymbol_pushSymbol, hsymbol, hscopes]
    have hdeclared := h.declared scope id
    by_cases hid : id = t.nextSymbol
    · subst hid
      rw [if_pos rfl]
      have hnot : t.nextSymbol ∉ (t.scope scope).declared :=
        fun hmem => t.not_hasSymbol_nextSymbol (hdeclared.mp hmem).1
      by_cases henclosing : scope = x.enclosing
      · subst henclosing
        simp [hhas, Scope.insert]
      · simp [henclosing, hnot, Ne.symm henclosing]
    · rw [if_neg hid]
      split <;> simp [Scope.insert, hid, hdeclared]
  case increasing =>
    rw [hscopes]
    split
    · refine List.pairwise_append.mpr ⟨h.increasing scope, List.pairwise_singleton _ _, ?_⟩
      intro y hy z hz
      rw [List.mem_singleton.mp hz]
      exact ((h.declared scope y).mp hy).1
    · exact h.increasing scope
  case owner =>
    rw [(hkeeps scope).2, ← h.owner]
    refine ⟨fun hown => (hold hown).1, fun hown => ?_⟩
    rwa [hsymbol, if_neg (hne (hasSymbol_of_owner hown))]
  case inside =>
    obtain ⟨hown, hsame⟩ := hold hown
    rw [(hkeeps own).1, hsame]
    exact h.inside id own hown
  case bound =>
    have hbound : b ∈ (t.scope scope).bindings → (t.pushSymbol key x).2.MayBind scope b.2 := by
      intro hb
      obtain ⟨hhas, hplace⟩ := h.bound scope b hb
      refine ⟨(t.hasSymbol_pushSymbol key x b.2).mpr (.inl hhas), ?_⟩
      rwa [hsymbol, if_neg (hne hhas)]
    rw [hscopes] at hb
    split at hb
    · rename_i hhere
      rcases List.mem_append.mp hb with hb | hb
      · exact hbound hb
      · rw [List.mem_singleton.mp hb]
        refine ⟨(t.hasSymbol_pushSymbol key x _).mpr (.inr rfl), .inl ?_⟩
        rw [hsymbol, if_pos rfl, hhere.1]
    · exact hbound hb

theorem pushScope (h : t.Arena) {x : Scope} {around : ScopeId} (howner : x.owner = none)
    (hdeclared : x.declared = []) (hbindings : x.bindings = [])
    (henclosing : x.enclosing = some around) : (t.pushScope x).2.Arena := by
  have hscopes := t.scope_pushScope x
  refine
    { enclosed := fun scope hscope hne => ?enclosed
      declared := fun scope id => ?declared
      increasing := fun scope => ?increasing
      owner := fun id scope => ?owner
      inside := fun id own hown => ?inside
      bound := fun scope b hb => ?bound }
  case enclosed =>
    rw [hscopes]
    split
    · exact ⟨around, henclosing⟩
    · rename_i hnew
      exact h.enclosed scope (((t.hasScope_pushScope x scope).mp hscope).resolve_right hnew) hne
  case declared =>
    rw [hscopes]
    split
    · rename_i hnew
      rw [hdeclared, hnew]
      refine ⟨nofun, fun ⟨hid, hplace⟩ => ?_⟩
      exact absurd hplace (h.enclosing_ne_nextScope hid)
    · exact h.declared scope id
  case increasing =>
    rw [hscopes]
    split
    · rw [hdeclared]
      exact .nil
    · exact h.increasing scope
  case owner =>
    rw [hscopes]
    split
    · rename_i hnew
      have hnobody := h.owner id t.nextScope
      rw [scope_eq_default t.not_hasScope_nextScope] at hnobody
      rw [howner, hnew]
      exact hnobody
    · exact h.owner id scope
  case inside =>
    rw [hscopes]
    split
    · rename_i hnew
      have hnobody := (h.owner id own).mp hown
      rw [hnew, scope_eq_default t.not_hasScope_nextScope] at hnobody
      cases hnobody
    · exact h.inside id own hown
  case bound =>
    rw [hscopes] at hb
    split at hb
    · rw [hbindings] at hb
      cases hb
    · obtain ⟨hhas, hplace⟩ := h.bound scope b hb
      exact ⟨hhas, hplace⟩

/-- A symbol without a scope gets one that nobody owns. -/
theorem claim (h : t.Arena) {id : SymbolId} {header : ScopeId} (hid : t.HasSymbol id)
    (hunscoped : (t.symbol id).scope = none) (hunowned : (t.scope header).owner = none)
    (hinside : (t.scope header).enclosing = some (t.symbol id).enclosing) :
    ((t.modifySymbol id fun s => { s with scope := some header }).modifyScope header
      fun s => { s with owner := some id }).Arena := by
  have hsymbol : ∀ j, ((t.modifySymbol id fun s => { s with scope := some header }).modifyScope
      header fun s => { s with owner := some id }).symbol j =
      if j = id then { t.symbol j with scope := some header } else t.symbol j := by
    intro j
    rw [symbol_modifyScope, symbol_modifySymbol]
    by_cases hj : j = id
    · rw [if_pos ⟨hj, hj ▸ hid⟩, if_pos hj]
    · rw [if_neg fun h => hj h.1, if_neg hj]
  have hscope : ∀ c, ((t.modifySymbol id fun s => { s with scope := some header }).modifyScope
      header fun s => { s with owner := some id }).scope c =
      if c = header then { t.scope c with owner := some id } else t.scope c := by
    intro c
    rw [scope_modifyScope, scope_modifySymbol]
    by_cases hc : c = header
    · have hhas : t.HasScope c := hc ▸ hasScope_of_enclosing hinside
      rw [if_pos ⟨hc, hhas⟩, if_pos hc]
    · rw [if_neg fun h => hc h.1, if_neg hc]
  refine
    { enclosed := fun c hc hne => ?enclosed
      declared := fun c j => ?declared
      increasing := fun c => ?increasing
      owner := fun j c => ?owner
      inside := fun j own hown => ?inside
      bound := fun c b hb => ?bound }
  case enclosed =>
    rw [hscope]
    have henclosed := h.enclosed c ((hasScope_modifyScope _ header c _).mp hc) hne
    split <;> exact henclosed
  case declared =>
    rw [hscope, hsymbol, hasSymbol_modifyScope, hasSymbol_modifySymbol]
    have hdeclared := h.declared c j
    split <;> split <;> exact hdeclared
  case increasing =>
    rw [hscope]
    split <;> exact h.increasing c
  case owner =>
    rw [hscope, hsymbol]
    have howner := h.owner j c
    by_cases hj : j = id <;> by_cases hc : c = header
    · simp [hj, hc]
    · subst hj
      rw [if_pos rfl, if_neg hc, ← howner, hunscoped]
      simp [Ne.symm hc]
    · subst hc
      rw [if_neg hj, if_pos rfl, howner, hunowned]
      simp [Ne.symm hj]
    · rw [if_neg hj, if_neg hc]
      exact howner
  case inside =>
    rw [hsymbol] at hown ⊢
    rw [hscope]
    split at hown
    · rename_i hj
      cases hown
      rw [if_pos rfl, if_pos hj, hj]
      exact hinside
    · rename_i hj
      have hold := h.inside j own hown
      rw [if_neg hj]
      split <;> exact hold
  case bound =>
    rw [hscope] at hb
    have hold : b ∈ (t.scope c).bindings := by split at hb <;> exact hb
    obtain ⟨hhas, hplace⟩ := h.bound c b hold
    refine ⟨(hasSymbol_modifySymbol t id b.2 _).mpr hhas, ?_⟩
    rw [hsymbol]
    split <;> exact hplace

theorem step (h : t.Arena) (hstep : t.Step u) : u.Arena := by
  cases hstep with
  | complete id f grows scope => exact h.complete grows scope
  | declare key x has scope => exact h.declare has scope
  | «open» id kind has unscoped =>
    have hpush : (t.pushScope (.fresh kind none (some (t.symbol id).enclosing))).2.Arena :=
      h.pushScope rfl rfl rfl rfl
    rw [pushOwnScope_eq]
    refine hpush.claim has unscoped ?_ ?_
    · rw [scope_pushScope, if_pos rfl]
      rfl
    · rw [scope_pushScope, if_pos rfl]
      rfl
  | openHeader around parameters => exact h.pushScope rfl rfl rfl rfl
  | claim id header has unscoped unowned inside => exact h.claim has unscoped unowned inside
  | expose scope name id may => exact h.expose name may
  | settle header =>
    exact h.modifyScope (fun _ => rfl) (fun _ => rfl) (fun _ => rfl) fun _ hb => .inl hb

theorem steps (h : t.Arena) (hsteps : t.Steps u) : u.Arena := by
  induction hsteps with
  | refl => exact h
  | tail _ hstep ih => exact ih.step hstep

end Arena

/-! ### Walks -/

theorem Linked.wellFounded_enclosing (ht : t.Linked) :
    WellFounded fun around scope => (t.scope scope).enclosing = some around :=
  Subrelation.wf (fun h => ht.enclosing_lt _ _ h) (InvImage.wf ScopeId.index Nat.lt_wfRel.wf)

/-- A scope that is listed below another one is younger. -/
theorem Arena.index_lt_of_listedScope? (h : t.Arena) (ht : t.Linked) {scope own : ScopeId}
    {id : SymbolId} (hid : id ∈ (t.scope scope).declared)
    (hown : listedScope? (t.symbol id) = some own) :
    t.HasScope own ∧ scope.index < own.index := by
  have hscope : (t.symbol id).scope = some own := by
    unfold listedScope? at hown
    split at hown
    · cases hown
    · exact hown
  have hinside := h.inside id own hscope
  rw [((h.declared scope id).mp hid).2] at hinside
  exact ⟨ht.symbol_scope_has id own hscope, ht.enclosing_lt own scope hinside⟩

/-- Going from a scope to those that are listed below it comes to an end. -/
theorem Arena.wellFounded_listedScope? (h : t.Arena) (ht : t.Linked) :
    WellFounded fun own scope =>
      ∃ id ∈ (t.scope scope).declared, listedScope? (t.symbol id) = some own := by
  refine Subrelation.wf (r := InvImage (· < ·) fun scope => t.scopeCount - scope.index) ?_
    (InvImage.wf _ Nat.lt_wfRel.wf)
  rintro own scope ⟨id, hid, hown⟩
  obtain ⟨hhas, hlt⟩ := h.index_lt_of_listedScope? ht hid hown
  have : own.index < t.scopeCount := hhas
  show t.scopeCount - own.index < t.scopeCount - scope.index
  omega

/-- The outline has all that is below a scope: more levels than there are younger scopes
do not add to it. -/
theorem Arena.listingWithin_eq (h : t.Arena) (ht : t.Linked) : ∀ (limit limit' depth : Nat)
    (scope : ScopeId), t.HasScope scope → t.scopeCount ≤ scope.index + limit →
    t.scopeCount ≤ scope.index + limit' →
    t.listingWithin limit depth scope = t.listingWithin limit' depth scope
  | 0, _, _, _, hhas, hlimit, _ => absurd hhas (Nat.not_lt.mpr hlimit)
  | _ + 1, 0, _, _, hhas, _, hlimit' => absurd hhas (Nat.not_lt.mpr hlimit')
  | limit + 1, limit' + 1, depth, scope, _, hlimit, hlimit' => by
    rw [listingWithin, listingWithin]
    refine List.flatMap_congr fun id hid => ?_
    cases hown : listedScope? (t.symbol id) with
    | none => rfl
    | some own =>
      obtain ⟨hhas, hlt⟩ := h.index_lt_of_listedScope? ht hid hown
      have hrest := h.listingWithin_eq ht limit limit' (depth + 1) own hhas (by omega) (by omega)
      simp only [hrest]

end TemplateAnalysis.SymbolTable
