import Mathlib.Data.List.Lex
import Mathlib.Data.List.Sort
import TemplateAnalysis.Proofs.Session.Arena

/-!
# What the outline lists

The outline is written from the outside in: from the global scope it goes through what is
declared there, and into the scopes of what it lists. What it lists is told from the inside
out: a symbol is there unless it is a template parameter or has a template header around it.
The symbols come in the order of their paths. A path precedes those that go on from it, and
where two paths part the older symbol goes first.
-/

namespace TemplateAnalysis

def SymbolId.IsOlder (o p : SymbolId) : Prop := o.index < p.index

instance : Std.Asymm SymbolId.IsOlder := ⟨fun _ _ => Nat.lt_asymm⟩

namespace SymbolTable

variable {t : SymbolTable}

def outward (t : SymbolTable) : Nat → ScopeId → Option ScopeId
  | 0, scope => some scope
  | steps + 1, scope => (t.scope scope).enclosing.bind (t.outward steps)

def AvoidsHeaders (t : SymbolTable) (scope : ScopeId) : Prop :=
  ∀ around ∈ t.enclosingScopes scope, ¬ t.IsHeader around

/-- Whether a scope is that many steps inside of the global one, and avoids headers. -/
structure StandsAt (t : SymbolTable) (depth : Nat) (scope : ScopeId) : Prop where
  has : t.HasScope scope
  avoids : t.AvoidsHeaders scope
  outward : t.outward depth scope = some .global

/-- Whether a symbol belongs into the outline. -/
structure IsOutlined (t : SymbolTable) (id : SymbolId) : Prop where
  has : t.HasSymbol id
  kind : (t.symbol id).kind ≠ .templateParameter
  avoids : t.AvoidsHeaders (t.symbol id).enclosing

def Precedes (t : SymbolTable) (y z : SymbolId) : Prop :=
  List.Lex SymbolId.IsOlder (t.path y) (t.path z)

instance (t : SymbolTable) : Std.Asymm t.Precedes :=
  ⟨fun _ _ => (List.Lex.asymm SymbolId.IsOlder).asymm _ _⟩

/-! ### Around a scope -/

theorem enclosingScopes_of_enclosing (ht : t.Linked) {scope around : ScopeId}
    (haround : (t.scope scope).enclosing = some around) :
    t.enclosingScopes scope = scope :: t.enclosingScopes around := by
  rw [enclosingScopes_eq ht, haround]
  rfl

theorem mem_enclosingScopes_self (ht : t.Linked) (scope : ScopeId) :
    scope ∈ t.enclosingScopes scope := by
  rw [enclosingScopes_eq ht]
  exact List.mem_cons_self

/-- What is around a scope around is around a scope. -/
theorem suffix_enclosingScopes (ht : t.Linked) {around scope : ScopeId}
    (h : around ∈ t.enclosingScopes scope) :
    t.enclosingScopes around <:+ t.enclosingScopes scope := by
  induction scope using ht.wellFounded_enclosing.induction with
  | _ scope ih =>
    rw [enclosingScopes_eq ht scope] at h
    rcases List.mem_cons.mp h with rfl | h
    · exact List.suffix_refl _
    · cases he : (t.scope scope).enclosing with
      | none =>
        rw [he] at h
        cases h
      | some e =>
        rw [he] at h
        rw [enclosingScopes_of_enclosing ht he]
        exact (ih e he h).trans (List.suffix_cons _ _)

theorem prefix_ownerChain (ht : t.Linked) {around scope : ScopeId}
    (h : around ∈ t.enclosingScopes scope) : t.ownerChain around <+: t.ownerChain scope :=
  List.reverse_prefix.mpr ((suffix_enclosingScopes ht h).filterMap _)

theorem AvoidsHeaders.around {around scope : ScopeId} (h : t.AvoidsHeaders scope) (ht : t.Linked)
    (haround : around ∈ t.enclosingScopes scope) : t.AvoidsHeaders around :=
  fun e he => h e ((suffix_enclosingScopes ht haround).subset he)

theorem exists_outward (harena : t.Arena) (ht : t.Linked) {scope : ScopeId}
    (hscope : t.HasScope scope) : ∃ steps, t.outward steps scope = some .global := by
  induction scope using ht.wellFounded_enclosing.induction with
  | _ scope ih =>
    by_cases hglobal : scope = .global
    · exact ⟨0, congrArg some hglobal⟩
    · obtain ⟨around, haround⟩ := harena.enclosed scope hscope hglobal
      obtain ⟨steps, hsteps⟩ := ih around haround (ht.enclosing_has haround)
      exact ⟨steps + 1, by rw [outward, haround, Option.bind_some, hsteps]⟩

/-! ### Paths -/

theorem path_eq (t : SymbolTable) (id : SymbolId) :
    t.path id = t.ownerChain (t.symbol id).enclosing ++ [id] := rfl

/-- A symbol precedes those that it is an owner of. -/
theorem precedes_of_prefix {y z : SymbolId}
    (h : t.path y <+: t.ownerChain (t.symbol z).enclosing) : t.Precedes y z := by
  obtain ⟨rest, hrest⟩ := h
  have hnil : List.Lex SymbolId.IsOlder [] (rest ++ [z]) := by
    cases rest <;> exact .nil
  rw [Precedes, path_eq t z, ← hrest, List.append_assoc]
  simpa using hnil.append_left SymbolId.IsOlder (t.path y)

/-- Paths that part go on in the order of the symbols where they do. -/
theorem precedes_of_lt {y z o p : SymbolId} (hy : t.path o <+: t.path y)
    (hz : t.path p <+: t.path z) (hplace : (t.symbol o).enclosing = (t.symbol p).enclosing)
    (hlt : o.IsOlder p) : t.Precedes y z := by
  obtain ⟨rest, hrest⟩ := hy
  obtain ⟨rest', hrest'⟩ := hz
  rw [Precedes, ← hrest, ← hrest', path_eq, path_eq, hplace, List.append_assoc, List.append_assoc]
  exact List.Lex.append_left SymbolId.IsOlder (.rel hlt) _

/-! ### The listing of a scope -/

def listingFrom (t : SymbolTable) (depth : Nat) (scope : ScopeId) : List (Nat × SymbolId) :=
  t.listingWithin t.scopeCount depth scope

def entriesOf (t : SymbolTable) (depth : Nat) (id : SymbolId) : List (Nat × SymbolId) :=
  if (t.symbol id).kind = .templateParameter then []
  else (depth, id) :: ((listedScope? (t.symbol id)).map (t.listingFrom (depth + 1))).getD []

theorem listedScope?_eq_some {x : Symbol} {own : ScopeId} :
    listedScope? x = some own ↔ x.kind ≠ .template ∧ x.scope = some own := by
  obtain ⟨_, _, _, _, _, _, _, _, entity⟩ := x
  cases entity <;> simp [listedScope?, Symbol.kind, Entity.kind]

theorem mem_entriesOf {depth : Nat} {id : SymbolId} {x : Nat × SymbolId} :
    x ∈ t.entriesOf depth id ↔ (t.symbol id).kind ≠ .templateParameter ∧
      (x = (depth, id) ∨
        ∃ own, listedScope? (t.symbol id) = some own ∧ x ∈ t.listingFrom (depth + 1) own) := by
  rw [entriesOf]
  split
  · simp [*]
  · cases listedScope? (t.symbol id) <;> simp [*]

/-- The limit on the levels cuts nothing off, so that the listing of a scope consists of what
is listed of the symbols that it declares. -/
theorem Arena.listingFrom_eq (h : t.Arena) (ht : t.Linked) (depth : Nat) {scope : ScopeId}
    (hscope : t.HasScope scope) :
    t.listingFrom depth scope = (t.scope scope).declared.flatMap (t.entriesOf depth) := by
  have hpos : scope.index < t.scopeCount := hscope
  obtain ⟨n, hn⟩ : ∃ n, t.scopeCount = n + 1 := ⟨t.scopeCount - 1, by omega⟩
  rw [listingFrom, hn, listingWithin]
  refine List.flatMap_congr fun id hid => ?_
  rw [entriesOf]
  split
  · rename_i hentity
    rw [if_pos (by rw [Symbol.kind, hentity]; rfl)]
  · rename_i hentity
    have hkind : (t.symbol id).kind ≠ .templateParameter := by
      intro hkind
      cases he : (t.symbol id).entity <;> rw [Symbol.kind, he] at hkind <;> try cases hkind
      exact hentity _ he
    rw [if_neg hkind]
    cases hown : listedScope? (t.symbol id) with
    | none => rfl
    | some own =>
      obtain ⟨hhas, hlt⟩ := h.index_lt_of_listedScope? ht hid hown
      have hrest := h.listingWithin_eq ht n t.scopeCount (depth + 1) own hhas (by omega) (by omega)
      simp only [hrest, listingFrom, Option.map_some, Option.getD_some]

theorem Arena.mem_listingFrom (h : t.Arena) (ht : t.Linked) {depth : Nat} {scope : ScopeId}
    (hscope : t.HasScope scope) {x : Nat × SymbolId} :
    x ∈ t.listingFrom depth scope ↔ ∃ id ∈ (t.scope scope).declared, x ∈ t.entriesOf depth id := by
  rw [h.listingFrom_eq ht depth hscope, List.mem_flatMap]

/-- What makes a tree of the scopes that the outline goes through. -/
structure IsTree (t : SymbolTable) : Prop where
  linked : t.Linked
  arena : t.Arena
  placed : t.Placed
  heads : t.HeadsTemplates

namespace IsTree

theorem of_listedScope? (h : t.IsTree) {id : SymbolId} {own : ScopeId}
    (hown : listedScope? (t.symbol id) = some own) :
    (t.symbol id).scope = some own ∧ ¬ t.IsHeader own := by
  obtain ⟨hkind, hscope⟩ := listedScope?_eq_some.mp hown
  exact ⟨hscope, fun hheader => hkind (h.heads id own hscope hheader)⟩

theorem ownerChain_own (h : t.IsTree) {id : SymbolId} {own : ScopeId}
    (hown : (t.symbol id).scope = some own) (hheader : ¬ t.IsHeader own) :
    t.ownerChain own = t.path id := by
  rw [ownerChain_of_enclosing h.linked (h.arena.inside id own hown), if_neg hheader,
    (h.arena.owner id own).mp hown]
  rfl

theorem standsAt_global (h : t.IsTree) : t.StandsAt 0 .global := by
  refine ⟨h.linked.global_has, fun around haround => ?_, rfl⟩
  obtain rfl : around = .global := List.mem_singleton.mp haround
  exact h.placed.global_root.1

theorem standsAt_own (h : t.IsTree) {depth : Nat} {id : SymbolId} {own : ScopeId}
    (hplace : t.StandsAt depth (t.symbol id).enclosing)
    (hown : listedScope? (t.symbol id) = some own) : t.StandsAt (depth + 1) own := by
  obtain ⟨hscope, hheader⟩ := h.of_listedScope? hown
  have hinside := h.arena.inside id own hscope
  refine ⟨h.linked.symbol_scope_has id own hscope, ?_, ?_⟩
  · rw [AvoidsHeaders, enclosingScopes_of_enclosing h.linked hinside]
    exact List.forall_mem_cons.mpr ⟨hheader, hplace.avoids⟩
  · rw [SymbolTable.outward, hinside, Option.bind_some, hplace.outward]

/-! ### What is listed -/

/-- What a scope lists stands inside of it, as deep as it says, and in no header. -/
theorem of_mem_listingFrom (h : t.IsTree) {depth : Nat} {scope : ScopeId}
    (hscope : t.StandsAt depth scope) {x : Nat × SymbolId} (hx : x ∈ t.listingFrom depth scope) :
    t.IsOutlined x.2 ∧ t.outward x.1 (t.symbol x.2).enclosing = some .global ∧
      scope ∈ t.enclosingScopes (t.symbol x.2).enclosing := by
  have hbelow := h.arena.wellFounded_listedScope? h.linked
  induction scope using hbelow.induction generalizing depth with
  | _ scope ih =>
    obtain ⟨id, hid, hentry⟩ := (h.arena.mem_listingFrom h.linked hscope.has).mp hx
    obtain ⟨hhas, rfl⟩ := (h.arena.declared scope id).mp hid
    obtain ⟨hkind, rfl | ⟨own, hlisted, hbelow⟩⟩ := mem_entriesOf.mp hentry
    · exact ⟨⟨hhas, hkind, hscope.avoids⟩, hscope.outward, mem_enclosingScopes_self h.linked _⟩
    · obtain ⟨houtlined, hsteps, haround⟩ :=
        ih own ⟨id, hid, hlisted⟩ (h.standsAt_own hscope hlisted) hbelow
      refine ⟨houtlined, hsteps, (suffix_enclosingScopes h.linked haround).subset ?_⟩
      have hinside := h.arena.inside id own (h.of_listedScope? hlisted).1
      rw [enclosingScopes_of_enclosing h.linked hinside]
      exact List.mem_cons_of_mem _ (mem_enclosingScopes_self h.linked _)

/-- The outline gets into every scope that avoids headers: its owner is listed one level up. -/
theorem listingFrom_subset (h : t.IsTree) : ∀ {depth : Nat} {scope : ScopeId},
    t.StandsAt depth scope → t.listingFrom depth scope ⊆ t.listing
  | 0, scope, hscope => by
    obtain rfl : scope = .global := Option.some.inj hscope.outward
    exact List.Subset.refl _
  | depth + 1, scope, ⟨hscope, havoids, hdepth⟩ => by
    obtain ⟨around, haround, hdepth⟩ := Option.bind_eq_some_iff.mp hdepth
    rw [AvoidsHeaders, enclosingScopes_of_enclosing h.linked haround,
      List.forall_mem_cons] at havoids
    obtain ⟨hheader, havoids⟩ := havoids
    have hplace : t.StandsAt depth around := ⟨h.linked.enclosing_has haround, havoids, hdepth⟩
    obtain ⟨o, howner⟩ : ∃ o, (t.scope scope).owner = some o := by
      refine Option.ne_none_iff_exists'.mp fun hnone => ?_
      rw [h.placed.owned scope hscope hheader hnone, h.placed.global_root.2.2] at haround
      cases haround
    obtain ⟨hcontainer, hown, henclosing⟩ := h.placed.owner scope o hheader howner
    obtain rfl := Option.some.inj (haround.symm.trans henclosing)
    have hid := (h.arena.declared _ o).mpr ⟨Arena.hasSymbol_of_owner hown, rfl⟩
    have hlisted : listedScope? (t.symbol o) = some scope :=
      listedScope?_eq_some.mpr ⟨hcontainer.kind_ne rfl, hown⟩
    refine fun x hx => h.listingFrom_subset hplace ?_
    exact (h.arena.mem_listingFrom h.linked hplace.has).mpr
      ⟨o, hid, mem_entriesOf.mpr ⟨hcontainer.kind_ne rfl, .inr ⟨scope, hlisted, hx⟩⟩⟩

/-- What avoids headers is listed, unless it is a template parameter, and nothing else. -/
theorem mem_listing_iff (h : t.IsTree) (id : SymbolId) :
    id ∈ t.listing.map (·.2) ↔ t.IsOutlined id := by
  constructor
  · intro hid
    obtain ⟨x, hx, rfl⟩ := List.mem_map.mp hid
    exact (h.of_mem_listingFrom h.standsAt_global hx).1
  · intro hid
    have hscope := h.linked.symbol_enclosing_has id hid.has
    obtain ⟨depth, hdepth⟩ := exists_outward h.arena h.linked hscope
    have hmem : (depth, id) ∈ t.listingFrom depth (t.symbol id).enclosing :=
      (h.arena.mem_listingFrom h.linked hscope).mpr ⟨id, (h.arena.declared _ id).mpr ⟨hid.has, rfl⟩,
        mem_entriesOf.mpr ⟨hid.kind, .inl rfl⟩⟩
    have hlisted := h.listingFrom_subset ⟨hscope, hid.avoids, hdepth⟩ hmem
    exact List.mem_map_of_mem hlisted

/-! ### The order -/

theorem precedes_of_inside (h : t.IsTree) {id below : SymbolId} {own : ScopeId}
    (hown : (t.symbol id).scope = some own) (hheader : ¬ t.IsHeader own)
    (hbelow : own ∈ t.enclosingScopes (t.symbol below).enclosing) : t.Precedes id below := by
  apply precedes_of_prefix
  rw [← h.ownerChain_own hown hheader]
  exact prefix_ownerChain h.linked hbelow

theorem prefix_path_of_mem_entriesOf (h : t.IsTree) {depth : Nat} {id : SymbolId}
    (hplace : t.StandsAt depth (t.symbol id).enclosing) {x : Nat × SymbolId}
    (hx : x ∈ t.entriesOf depth id) : t.path id <+: t.path x.2 := by
  obtain ⟨-, rfl | ⟨own, hlisted, hx⟩⟩ := mem_entriesOf.mp hx
  · exact List.prefix_refl _
  · obtain ⟨hown, hheader⟩ := h.of_listedScope? hlisted
    obtain ⟨-, -, hbelow⟩ := h.of_mem_listingFrom (h.standsAt_own hplace hlisted) hx
    rw [← h.ownerChain_own hown hheader]
    exact (prefix_ownerChain h.linked hbelow).trans (List.prefix_append _ _)

theorem pairwise_listingFrom (h : t.IsTree) {depth : Nat} {scope : ScopeId}
    (hscope : t.StandsAt depth scope) :
    (t.listingFrom depth scope).Pairwise fun x y => t.Precedes x.2 y.2 := by
  have hbelow := h.arena.wellFounded_listedScope? h.linked
  induction scope using hbelow.induction generalizing depth with
  | _ scope ih =>
    rw [h.arena.listingFrom_eq h.linked depth hscope.has, List.pairwise_flatMap]
    constructor
    · intro id hid
      obtain ⟨-, rfl⟩ := (h.arena.declared scope id).mp hid
      rw [entriesOf]
      split
      · exact .nil
      · cases hlisted : listedScope? (t.symbol id) with
        | none => exact List.pairwise_singleton _ _
        | some own =>
          have hinner := h.standsAt_own hscope hlisted
          obtain ⟨hown, hheader⟩ := h.of_listedScope? hlisted
          refine List.pairwise_cons.mpr ⟨fun y hy => ?_, ih own ⟨id, hid, hlisted⟩ hinner⟩
          exact h.precedes_of_inside hown hheader (h.of_mem_listingFrom hinner hy).2.2
    · refine (h.arena.increasing scope).imp_of_mem fun {o p} ho hp hlt x hx y hy => ?_
      obtain ⟨-, ho⟩ := (h.arena.declared scope o).mp ho
      obtain ⟨-, hp⟩ := (h.arena.declared scope p).mp hp
      have hx := h.prefix_path_of_mem_entriesOf (ho.symm ▸ hscope) hx
      have hy := h.prefix_path_of_mem_entriesOf (hp.symm ▸ hscope) hy
      exact precedes_of_lt hx hy (ho.trans hp.symm) hlt

theorem pairwise_listing (h : t.IsTree) : (t.listing.map (·.2)).Pairwise t.Precedes :=
  List.pairwise_map.mpr (h.pairwise_listingFrom h.standsAt_global)

end IsTree

/-! ### The outline as a whole -/

/-- How a table is listed in its outline. -/
structure ListsOnce (t : SymbolTable) : Prop where
  /-- The limit on the levels cuts nothing off. -/
  complete : ∀ limit, t.scopeCount ≤ limit → t.listingWithin limit 0 .global = t.listing
  mem_iff : ∀ id, id ∈ t.listing.map (·.2) ↔ t.IsOutlined id
  nodup : (t.listing.map (·.2)).Nodup
  /-- The nesting is the number of steps from the scope around a symbol to the global one. -/
  depth : ∀ depth id, (depth, id) ∈ t.listing →
    t.outward depth (t.symbol id).enclosing = some .global
  /-- A symbol comes before all that is declared in its scope, directly or further inside. -/
  parents : ∀ id own below, (t.symbol id).scope = some own → t.IsOutlined below →
    own ∈ t.enclosingScopes (t.symbol below).enclosing →
    [id, below].Sublist (t.listing.map (·.2))
  /-- The symbols of one scope come in the order in which they were declared. -/
  siblings : ∀ scope, t.AvoidsHeaders scope →
    (t.listing.map (·.2)).filter (fun id => (t.symbol id).enclosing = scope) =
      (t.scope scope).declared.filter fun id => (t.symbol id).kind ≠ .templateParameter

namespace IsTree

theorem sublist_listing (h : t.IsTree) {y z : SymbolId} (hy : t.IsOutlined y)
    (hz : t.IsOutlined z) (hprecedes : t.Precedes y z) :
    [y, z].Sublist (t.listing.map (·.2)) := by
  have hpair : [y, z].Pairwise t.Precedes := List.pairwise_pair.mpr hprecedes
  refine List.sublist_of_subperm_of_pairwise (List.subperm_of_subset hpair.nodup ?_) hpair
    h.pairwise_listing
  simp [h.mem_listing_iff, hy, hz]

theorem isOutlined_owner (h : t.IsTree) {id : SymbolId} {own : ScopeId}
    (hown : (t.symbol id).scope = some own) (havoids : t.AvoidsHeaders own) :
    t.IsOutlined id := by
  have hscopes := enclosingScopes_of_enclosing h.linked (h.arena.inside id own hown)
  rw [AvoidsHeaders, hscopes, List.forall_mem_cons] at havoids
  obtain ⟨hcontainer, -⟩ := h.placed.owner own id havoids.1 ((h.arena.owner id own).mp hown)
  exact ⟨Arena.hasSymbol_of_owner hown, hcontainer.kind_ne rfl, havoids.2⟩

theorem listsOnce (h : t.IsTree) : t.ListsOnce where
  complete limit hlimit := h.arena.listingWithin_eq h.linked limit _ 0 .global h.linked.global_has
    (by omega) (by omega)
  mem_iff := h.mem_listing_iff
  nodup := h.pairwise_listing.nodup
  depth _ _ hid := (h.of_mem_listingFrom h.standsAt_global hid).2.1
  parents id own below hown hbelow hinside := by
    have havoids := hbelow.avoids.around h.linked hinside
    have hheader := havoids own (mem_enclosingScopes_self h.linked own)
    exact h.sublist_listing (h.isOutlined_owner hown havoids) hbelow
      (h.precedes_of_inside hown hheader hinside)
  siblings scope havoids := by
    refine List.Pairwise.eq_of_mem_iff (h.pairwise_listing.filter _) ?_ fun id => ?_
    · refine ((h.arena.increasing scope).imp_of_mem fun {o p} ho hp hlt => ?_).filter _
      obtain ⟨-, ho⟩ := (h.arena.declared scope o).mp ho
      obtain ⟨-, hp⟩ := (h.arena.declared scope p).mp hp
      exact precedes_of_lt (List.prefix_refl _) (List.prefix_refl _) (ho.trans hp.symm) hlt
    · rw [List.mem_filter, List.mem_filter, h.mem_listing_iff, h.arena.declared]
      constructor
      · rintro ⟨⟨hhas, hkind, _⟩, hplace⟩
        exact ⟨⟨hhas, of_decide_eq_true hplace⟩, decide_eq_true hkind⟩
      · rintro ⟨⟨hhas, rfl⟩, hkind⟩
        exact ⟨⟨hhas, of_decide_eq_true hkind, havoids⟩, decide_eq_true rfl⟩

end IsTree

end SymbolTable

namespace Session

variable {s : Session}

/-- The outline of every session that operations reach lists every entity once: all but
template parameters and what stands in a template header, nested as they are, each before
what it contains and after the older ones beside it. -/
theorem listsOnce_of_run {config : Config} (h : (start config).Run s) : s.table.ListsOnce :=
  SymbolTable.IsTree.listsOnce
    ⟨h.closed.linked, h.arena, h.placed, h.headsTemplates⟩

/-- A template `N::Box` with a class behind its header, an instance, an enum with an enumerator
that is visible around it, and a class in `N` once that is open again. -/
theorem listsOnce_of_run_namespace :
    let box := (Operation.declareClass "Box" .structKey .synthesized).after
      ((Operation.beginTemplate [⟨"V", .nonType, none, false, none, .synthesized⟩]
        .synthesized).after ((Operation.openNamespace "N" .synthesized).after (start .standard)))
    let boxed := (Operation.instantiate ⟨2⟩ [.literal (.int 1) .synthesized] .synthesized).after
      ((Operation.endTemplate .synthesized).after
        ((Operation.declareClass "Inner" .structKey .synthesized).after box))
    let colour := (Operation.declareEnum "Colour" false none .synthesized).after
      ((Operation.closeNamespace .synthesized).after boxed)
    let s := (Operation.declareClass "Last" .structKey .synthesized).after
      ((Operation.openNamespace "N" .synthesized).after
        ((Operation.defineEnum ⟨5⟩ [⟨"red", none, .synthesized⟩] .synthesized).after colour))
    (start .standard).Run s ∧
      s.table.listing = [(0, ⟨0⟩), (1, ⟨2⟩), (1, ⟨4⟩), (1, ⟨7⟩), (0, ⟨5⟩), (1, ⟨6⟩)] ∧
      s.table.ListsOnce := by
  intro box boxed colour s
  have hbox : (start .standard).Run box :=
    ((Run.refl.step _ .of_handles_nil).step _ .of_handles_nil).step _ .of_handles_nil
  have hinner := (hbox.step (.declareClass "Inner" .structKey .synthesized)
    .of_handles_nil).step (.endTemplate .synthesized) .of_handles_nil
  have htemplate : ((Operation.endTemplate .synthesized).after ((Operation.declareClass "Inner"
      .structKey .synthesized).after box)).table.HasSymbol ⟨2⟩ := by
    decide +kernel
  have hboxed : (start .standard).Run boxed := hinner.step _ (.of_symbol htemplate)
  have hcolour : (start .standard).Run colour :=
    (hboxed.step _ .of_handles_nil).step _ .of_handles_nil
  have henum : colour.table.HasSymbol ⟨5⟩ := by decide +kernel
  have hrun : (start .standard).Run s :=
    ((hcolour.step _ (.of_symbol henum)).step _ .of_handles_nil).step _ .of_handles_nil
  exact ⟨hrun, by decide +kernel, listsOnce_of_run hrun⟩

end Session

end TemplateAnalysis
