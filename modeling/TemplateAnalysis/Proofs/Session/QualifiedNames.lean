import TemplateAnalysis.Proofs.Session.Arena
import TemplateAnalysis.Proofs.Session.OneEntity

/-!
# Qualified names

Two walks meet in a qualified name. The owners of a symbol are collected from the inside out,
and a path is looked up from the outside in, where each segment takes the first symbol that
may stand there. Outside of template headers every symbol is bound under the name that it is
filed under, and nothing but overloads shares a name, so the second walk goes back over the
first one.
-/

namespace TemplateAnalysis

/-! ### What is declared has a name -/

namespace Scope

def BindsDeclared (s : Scope) : Prop := ∀ id ∈ s.declared, ∃ name, id ∈ s.named name

theorem BindsDeclared.fresh (kind : ScopeKind) (owner : Option SymbolId)
    (enclosing : Option ScopeId) : (Scope.fresh kind owner enclosing).BindsDeclared := by
  simp [BindsDeclared, Scope.fresh]

theorem BindsDeclared.insert {s : Scope} (h : s.BindsDeclared) (name : String) (symbol : SymbolId) :
    (s.insert name symbol).BindsDeclared := by
  intro id hid
  rw [declared_insert] at hid
  rcases List.mem_append.mp hid with hid | hid
  · obtain ⟨key, hkey⟩ := h id hid
    exact ⟨key, by simp [named_insert, hkey]⟩
  · exact ⟨name, by simp [named_insert, List.mem_singleton.mp hid]⟩

theorem BindsDeclared.expose {s : Scope} (h : s.BindsDeclared) (name : String) (symbol : SymbolId) :
    (s.expose name symbol).BindsDeclared := by
  intro id hid
  rw [declared_expose] at hid
  obtain ⟨key, hkey⟩ := h id hid
  refine ⟨key, ?_⟩
  rw [named_expose]
  split
  · exact List.mem_append_left _ hkey
  · exact hkey

end Scope

namespace SymbolTable

variable {t u : SymbolTable}

theorem Step.bindsDeclared (hstep : t.Step u) (h : ∀ scope, (t.scope scope).BindsDeclared)
    (scope : ScopeId) : (u.scope scope).BindsDeclared := by
  cases hstep with
  | complete => exact h scope
  | declare key x =>
    rw [scope_pushSymbol]
    split
    · exact (h scope).insert key _
    · exact h scope
  | «open» id kind =>
    rw [pushOwnScope, scope_modifySymbol, scope_pushScope]
    split
    · exact .fresh _ _ _
    · exact h scope
  | openHeader around =>
    rw [scope_pushScope]
    split
    · exact Scope.BindsDeclared.fresh .templateHeader none (some around)
    · exact h scope
  | claim =>
    rw [scope_modifyScope]
    split <;> exact h scope
  | settle =>
    rw [settleHeader, scope_modifyScope]
    split <;> exact h scope
  | expose _ name id =>
    rw [SymbolTable.expose, scope_modifyScope]
    split
    · exact (h scope).expose name id
    · exact h scope

theorem Steps.bindsDeclared (hsteps : t.Steps u) (h : ∀ scope, (t.scope scope).BindsDeclared) :
    ∀ scope, (u.scope scope).BindsDeclared := by
  induction hsteps with
  | refl => exact h
  | tail _ hstep ih => exact hstep.bindsDeclared ih

theorem IsOneEntity.eq_singleton {ids : List SymbolId} (h : t.IsOneEntity ids) {id : SymbolId}
    (hid : id ∈ ids) (hkind : (t.symbol id).kind ≠ .function) : ids = [id] := by
  cases h with
  | single other eq =>
    rw [eq, List.mem_singleton] at hid
    rw [eq, hid]
  | overloads functions => exact absurd (functions id hid) hkind

/-! ### The two walks -/

theorem lookup_global (t : SymbolTable) (name : String) (accepted : KindSet) :
    t.lookup .global name accepted = t.lookupIn .global name accepted := by
  have hscopes : t.enclosingScopes .global = [.global] := rfl
  rw [lookup, hscopes, List.findSome?_singleton]

/-- Nothing is around the global scope, so a path from there is looked up inwards only. -/
theorem lookupPath_global (t : SymbolTable) (path : List String) (accepted : KindSet) :
    t.lookupPath .global path accepted = t.lookupInside accepted .global path := by
  match path with
  | [] => rfl
  | [name] => exact t.lookup_global name accepted
  | name :: next :: rest =>
    rw [lookupPath, lookupInside, lookup_global]
    all_goals simp

theorem lookupInside_cons (t : SymbolTable) {scope own : ScopeId} {name : String} {id : SymbolId}
    {rest : List String} {accepted : KindSet} (hid : t.lookupIn scope name .scopes = some id)
    (hown : (t.symbol id).scope = some own) (hrest : rest ≠ []) :
    t.lookupInside accepted scope (name :: rest) = t.lookupInside accepted own rest := by
  rw [lookupInside, hid]
  · simp [hown]
  · exact fun h => hrest h

theorem accepts_scopes {x : Symbol} (h : x.IsContainer) : KindSet.scopes.accepts x.kind = true := by
  unfold Symbol.IsContainer at h
  cases hkind : x.kind <;> rw [hkind] at h <;> first | rfl | cases h

/-- The path of names of a symbol: those that its owners are filed under, from the outside,
and its own. -/
def namePath (t : SymbolTable) (id : SymbolId) : List String :=
  (t.path id).map fun o => (t.symbol o).filedAs

/-- Where every owner is found from the scope around it, the names of the owners of a scope
lead to the scope. -/
theorem lookupInside_ownerChain (ht : t.Linked) (hplaced : t.Placed) {accepted : KindSet}
    (hfound : ∀ id, t.HasSymbol id → (t.symbol id).IsContainer →
      ¬ t.IsHeader (t.symbol id).enclosing →
      t.lookupIn (t.symbol id).enclosing (t.symbol id).filedAs .scopes = some id)
    {scope : ScopeId} (hscope : t.HasScope scope)
    (hheaders : ∀ around ∈ t.enclosingScopes scope, ¬ t.IsHeader around) {rest : List String}
    (hrest : rest ≠ []) :
    t.lookupInside accepted .global
        ((t.ownerChain scope).map (fun o => (t.symbol o).filedAs) ++ rest) =
      t.lookupInside accepted scope rest := by
  induction scope using ht.wellFounded_enclosing.induction generalizing rest with
  | _ scope ih =>
    rw [enclosingScopes_eq ht, List.forall_mem_cons] at hheaders
    obtain ⟨hheader, haround⟩ := hheaders
    cases howner : (t.scope scope).owner with
    | none =>
      obtain rfl := hplaced.owned scope hscope hheader howner
      rw [ownerChain_global hplaced, List.map_nil, List.nil_append]
    | some o =>
      obtain ⟨hcontainer, hown, henclosing⟩ := hplaced.owner scope o hheader howner
      rw [henclosing] at haround
      have houtside := ih _ henclosing (ht.enclosing_has henclosing) haround
        (List.cons_ne_nil (t.symbol o).filedAs rest)
      have hfound := hfound o (ht.owner_has scope o howner) hcontainer
        (haround _ (by simp [enclosingScopes_eq ht (t.symbol o).enclosing]))
      calc
        _ = t.lookupInside accepted .global
              ((t.ownerChain (t.symbol o).enclosing).map (fun o => (t.symbol o).filedAs) ++
                (t.symbol o).filedAs :: rest) := by
          simp [ownerChain_of_enclosing ht henclosing, hheader, howner]
        _ = t.lookupInside accepted (t.symbol o).enclosing ((t.symbol o).filedAs :: rest) :=
          houtside
        _ = t.lookupInside accepted scope rest := t.lookupInside_cons hfound hown hrest

end SymbolTable

namespace Session

variable {s : Session}

theorem Run.bindsDeclared {config : Config} (h : (start config).Run s) (scope : ScopeId) :
    (s.table.scope scope).BindsDeclared := by
  have hkept := h.invariant
    (fun v => v.table.Arena ∧ ∀ scope, (v.table.scope scope).BindsDeclared) (.start config)
    (fun v w hv hchange ⟨harena, hbinds⟩ =>
      have hsteps := hchange.steps hv harena
      ⟨harena.steps hsteps, hsteps.bindsDeclared hbinds⟩)
    (fun _ _ hkept => hkept) ⟨.initial, ?_⟩
  · exact hkept.2 scope
  · rintro ⟨n⟩
    cases n <;> exact .fresh _ _ _

theorem Run.lookupIn_filedAs {config : Config} (h : (start config).Run s)
    (hnames : s.HasIdentifiers) {id : SymbolId} (hid : s.table.HasSymbol id)
    (hkind : (s.table.symbol id).kind ≠ .function)
    (hheader : ¬ s.table.IsHeader (s.table.symbol id).enclosing) {accepted : KindSet}
    (haccepted : accepted.accepts (s.table.symbol id).kind = true) :
    s.table.lookupIn (s.table.symbol id).enclosing (s.table.symbol id).filedAs accepted =
      some id := by
  obtain ⟨hfiled, hone⟩ := h.isUnambiguous hnames
  obtain ⟨name, hname⟩ := h.bindsDeclared _ id ((h.arena.declared _ id).mpr ⟨hid, rfl⟩)
  have hsingle := (hone _ hheader name).eq_singleton hname hkind
  rw [SymbolTable.lookupIn, hfiled _ hheader name id hname, hsingle]
  simp [haccepted]

/-- In an analysis of declarations that are named by identifiers, a symbol that is no function
and does not stand inside of a template header is what its qualified name denotes. -/
theorem lookupPath_namePath {config : Config} (hrun : (start config).Run s)
    (hnames : s.HasIdentifiers) {id : SymbolId} (hid : s.table.HasSymbol id)
    (hkind : (s.table.symbol id).kind ≠ .function)
    (hheaders : ∀ scope ∈ s.table.enclosingScopes (s.table.symbol id).enclosing,
      ¬ s.table.IsHeader scope) :
    s.table.lookupPath .global (s.table.namePath id) (.singleton (s.table.symbol id).kind) =
      some id := by
  have hs := hrun.closed
  have hheader : ¬ s.table.IsHeader (s.table.symbol id).enclosing := by
    apply hheaders
    rw [SymbolTable.enclosingScopes_eq hs.linked]
    exact List.mem_cons_self
  rw [SymbolTable.lookupPath_global, SymbolTable.namePath, SymbolTable.path, List.map_append,
    List.map_singleton, SymbolTable.lookupInside_ownerChain hs.linked hrun.placed _
      (hs.linked.symbol_enclosing_has id hid) hheaders (List.cons_ne_nil _ _)]
  · apply hrun.lookupIn_filedAs hnames hid hkind hheader
    simp [KindSet.accepts_singleton]
  · intro o ho hcontainer
    exact fun hheader => hrun.lookupIn_filedAs hnames ho hcontainer.ne_function hheader
      (SymbolTable.accepts_scopes hcontainer)

/-- The instance `N::Box<1>` is found in `N` under its key. -/
theorem lookupPath_namePath_instance :
    let namespaced := (Operation.openNamespace "N" .synthesized).after (start .standard)
    let header := (Operation.beginTemplate [⟨"V", .nonType, none, false, none, .synthesized⟩]
      .synthesized).after namespaced
    let box := (Operation.declareClass "Box" .structKey .synthesized).after header
    let s := (Operation.instantiate ⟨2⟩ [.literal (.int 1) .synthesized] .synthesized).after box
    s.table.namePath ⟨3⟩ = ["N", "3BoxILi1EE"] ∧
      s.table.lookupPath .global (s.table.namePath ⟨3⟩) (.singleton .classType) = some ⟨3⟩ := by
  intro namespaced header box s
  have hbox : box.table.HasSymbol ⟨2⟩ := by decide +kernel
  have hheader : (start .standard).Run box :=
    ((Run.refl.step _ .of_handles_nil).step _ .of_handles_nil).step _ .of_handles_nil
  have hrun : (start .standard).Run s :=
    hheader.step _ (.of_symbol hbox)
  have hnames : s.HasIdentifiers := by
    rintro ⟨n⟩ hid horigin
    have hcount : s.table.symbolCount = 4 := by decide +kernel
    have hlt : n < 4 := lt_of_lt_of_eq hid hcount
    have hnames : ∀ n < 4, (s.table.symbol ⟨n⟩).origin?.isNone = true →
        (s.table.symbol ⟨n⟩).name.toList.head?.map Char.isDigit = some false := by
      decide +kernel
    obtain ⟨c, hc, hdigit⟩ := Option.map_eq_some_iff.mp (hnames n hlt (by simp [horigin]))
    obtain ⟨rest, hrest⟩ := List.head?_eq_some_iff.mp hc
    exact ⟨c, rest, hrest, hdigit⟩
  have hclass : (s.table.symbol ⟨3⟩).kind = .classType := by decide +kernel
  refine ⟨by decide +kernel, ?_⟩
  rw [← hclass]
  exact lookupPath_namePath hrun hnames (by decide +kernel) (by decide +kernel) (by decide +kernel)

end Session

end TemplateAnalysis
