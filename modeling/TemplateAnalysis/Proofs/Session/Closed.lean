import TemplateAnalysis.Proofs.Ast.Handles
import TemplateAnalysis.Proofs.SymbolTable.Stability
import TemplateAnalysis.Proofs.TypeGraph.Run
import TemplateAnalysis.Session.Basic

/-!
# Sessions whose handles exist

`Session.Grows` puts together how the table and the graph of a session grow. A
session is `Closed` when every handle that is stored in it names something it has:
links between symbols and scopes, types of symbols, and the trees of templates and
classes. What a closed session knows stays known, and its names stay as they are.
-/

namespace TemplateAnalysis

def InstanceOrigin.handles (origin : InstanceOrigin) : List Handle :=
  .symbol origin.template :: handlesOfArguments origin.arguments

def ClassData.handles (data : ClassData) : List Handle :=
  data.bases.map (.symbol ·.symbol) ++ handlesOfNodes data.members ++
    (data.origin.map (·.handles)).getD []

def TemplateData.handles (data : TemplateData) : List Handle :=
  data.parameters.flatMap (·.handles) ++ (data.pattern.map (·.handles)).getD []

def Entity.handles : Entity → List Handle
  | .nameSpace | .enumerator _ | .templateParameter _ => []
  | .classType data => data.handles
  | .enumeration data => (data.underlying.map Handle.type).toList ++ data.enumerators.map .symbol
  | .typedef target => [.type target]
  | .function data => [.type data.type]
  | .object data => [.type data.type]
  | .template data => data.handles

namespace Session

def Known (s : Session) : Handle → Prop
  | .symbol id => s.table.HasSymbol id
  | .type id => s.types.Has id

theorem allKnown_cons_symbol {s : Session} {id : SymbolId} {handles : List Handle}
    (hid : s.table.HasSymbol id) (h : AllKnown s.Known handles) :
    AllKnown s.Known (.symbol id :: handles) := h.cons hid

structure Grows (s u : Session) : Prop where
  config : u.config = s.config
  depth : u.depth = s.depth
  types : s.types.Prefix u.types
  table : s.table.Grows u.table

namespace Grows

variable {s u v : Session}

theorem refl (s : Session) : s.Grows s := ⟨rfl, rfl, .refl _, .refl _⟩

theorem trans (hsu : s.Grows u) (huv : u.Grows v) : s.Grows v :=
  ⟨huv.config.trans hsu.config, huv.depth.trans hsu.depth, hsu.types.trans huv.types,
    hsu.table.trans huv.table⟩

theorem known (h : s.Grows u) {handle : Handle} (hs : s.Known handle) : u.Known handle := by
  cases handle with
  | symbol id => exact h.table.hasSymbol id hs
  | type id => exact h.types.has hs

theorem allKnown (h : s.Grows u) {handles : List Handle} (hs : AllKnown s.Known handles) :
    AllKnown u.Known handles := fun x hx => h.known (hs x hx)

theorem of_table {table : SymbolTable} (h : s.table.Grows table) : s.Grows { s with table } :=
  ⟨rfl, rfl, .refl _, h⟩

theorem of_types {types : TypeGraph} (h : s.types.Prefix types) : s.Grows { s with types } :=
  ⟨rfl, rfl, h, .refl _⟩

end Grows

end Session

/-- The handles of a symbol exist in a session. The type that a symbol remembers is
its own. -/
structure Symbol.ClosedIn (s : Session) (id : SymbolId) (x : Symbol) : Prop where
  enclosing_has : s.table.HasScope x.enclosing
  scope_has : ∀ own, x.scope = some own → s.table.HasScope own
  type_label : ∀ type, x.type = some type → s.types.label? type = some (.base (.symbol id .none))
  known : AllKnown s.Known x.entity.handles

structure Scope.ClosedIn (s : Session) (id : ScopeId) (x : Scope) : Prop where
  enclosing_lt : ∀ e, x.enclosing = some e → e.index < id.index
  owner_has : ∀ o, x.owner = some o → s.table.HasSymbol o
  binding_has : ∀ b ∈ x.bindings, s.table.HasSymbol b.2
  declared_has : ∀ y ∈ x.declared, s.table.HasSymbol y
  pending_known : ∀ ps, x.pending = some ps → AllKnown s.Known (ps.flatMap (·.handles))

theorem Symbol.ClosedIn.fresh {s : Session} {id : SymbolId} {x : Symbol} (hscope : x.scope = none)
    (htype : x.type = none) (henclosing : s.table.HasScope x.enclosing)
    (hknown : AllKnown s.Known x.entity.handles) : x.ClosedIn s id where
  enclosing_has := henclosing
  scope_has own hown := by
    rw [hscope] at hown
    cases hown
  type_label type h := by
    rw [htype] at h
    cases h
  known := hknown

theorem Scope.ClosedIn.fresh {s : Session} {id : ScopeId} (kind : ScopeKind)
    {owner : Option SymbolId} {enclosing : Option ScopeId}
    (howner : ∀ o, owner = some o → s.table.HasSymbol o)
    (henclosing : ∀ e, enclosing = some e → e.index < id.index) :
    (Scope.fresh kind owner enclosing).ClosedIn s id where
  enclosing_lt := henclosing
  owner_has := howner
  binding_has b hb := by cases hb
  declared_has y hy := by cases hy
  pending_known ps hps := by cases hps

theorem Symbol.ClosedIn.grows {s u : Session} {id : SymbolId} {x : Symbol} (hx : x.ClosedIn s id)
    (h : s.Grows u) : x.ClosedIn u id where
  enclosing_has := h.table.hasScope _ hx.enclosing_has
  scope_has own hown := h.table.hasScope _ (hx.scope_has own hown)
  type_label type htype := h.types _ _ (hx.type_label type htype)
  known := h.allKnown hx.known

theorem Scope.ClosedIn.grows {s u : Session} {id : ScopeId} {x : Scope} (hx : x.ClosedIn s id)
    (h : s.Grows u) : x.ClosedIn u id where
  enclosing_lt := hx.enclosing_lt
  owner_has o ho := h.table.hasSymbol _ (hx.owner_has o ho)
  binding_has b hb := h.table.hasSymbol _ (hx.binding_has b hb)
  declared_has y hy := h.table.hasSymbol _ (hx.declared_has y hy)
  pending_known ps hps := h.allKnown (hx.pending_known ps hps)

namespace Session

/-- Every handle that is stored in a session names something that the session has. -/
structure Closed (s : Session) : Prop where
  types : s.types.Canonical
  base_has : ∀ id y q, s.types.label? id = some (.base (.symbol y q)) → s.table.HasSymbol y
  global_has : s.table.HasScope .global
  current_has : s.table.HasScope s.current
  symbol : ∀ id, s.table.HasSymbol id → (s.table.symbol id).ClosedIn s id
  scope : ∀ id, s.table.HasScope id → (s.table.scope id).ClosedIn s id

theorem Closed.start (config : Config) : (start config).Closed where
  types := .empty
  base_has _ _ _ h := by cases h
  global_has := Nat.zero_lt_one
  current_has := Nat.zero_lt_one
  symbol id hid := absurd hid (Nat.not_lt_zero _)
  scope id hid := by
    obtain ⟨i⟩ := id
    obtain rfl : i = 0 := Nat.lt_one_iff.mp hid
    refine Scope.ClosedIn.fresh .nameSpace (fun o h => ?_) fun e h => ?_
    · cases h
    · cases h

namespace Closed

variable {s : Session}

theorem linked (hs : s.Closed) : s.table.Linked where
  global_has := hs.global_has
  enclosing_lt id e he := (hs.scope id (SymbolTable.hasScope_of_enclosing he)).enclosing_lt e he
  owner_has id o ho := by
    by_cases hid : s.table.HasScope id
    · exact (hs.scope id hid).owner_has o ho
    · rw [SymbolTable.scope_eq_default hid] at ho
      cases ho
  binding_has id b hb := by
    by_cases hid : s.table.HasScope id
    · exact (hs.scope id hid).binding_has b hb
    · rw [SymbolTable.scope_eq_default hid] at hb
      cases hb
  declared_has id y hy := by
    by_cases hid : s.table.HasScope id
    · exact (hs.scope id hid).declared_has y hy
    · rw [SymbolTable.scope_eq_default hid] at hy
      cases hy
  symbol_enclosing_has id hid := (hs.symbol id hid).enclosing_has
  symbol_scope_has id own hown := by
    by_cases hid : s.table.HasSymbol id
    · exact (hs.symbol id hid).scope_has own hown
    · rw [SymbolTable.symbol_eq_default hid] at hown
      cases hown

theorem symbols_tree (hs : s.Closed) {id : TypeId} (hid : s.types.Has id) :
    ∀ y ∈ (s.types.tree id).symbols, s.table.HasSymbol y :=
  TypeGraph.symbols_tree hs.types hs.base_has hid

theorem typeEncoding_eq (hs : s.Closed) {u : Session} (hu : u.Closed) (h : s.Grows u)
    {id : TypeId} (hid : s.types.Has id) :
    u.table.typeEncoding u.types id = s.table.typeEncoding s.types id := by
  rw [SymbolTable.typeEncoding, SymbolTable.typeEncoding, h.types.tree_eq hs.types hu.types hid]
  exact TypeTree.encoding_congr _ fun y hy =>
    h.table.nestedName_eq hs.linked (hs.symbols_tree hid y hy)

theorem signature?_eq (hs : s.Closed) {u : Session} (hu : u.Closed) (h : s.Grows u)
    {id : TypeId} (hid : s.types.Has id) :
    u.table.signature? u.types id = s.table.signature? s.types id := by
  rw [SymbolTable.signature?, SymbolTable.signature?, h.types.tree_eq hs.types hu.types hid]
  exact TypeTree.signature?_congr _ fun y hy =>
    h.table.nestedName_eq hs.linked (hs.symbols_tree hid y hy)

theorem typeText_eq (hs : s.Closed) {u : Session} (hu : u.Closed) (h : s.Grows u)
    {id : TypeId} (hid : s.types.Has id) :
    u.table.typeText u.types id = s.table.typeText s.types id := by
  rw [SymbolTable.typeText, SymbolTable.typeText, h.types.tree_eq hs.types hu.types hid]
  exact TypeTree.text_congr _ fun y hy =>
    h.table.qualifiedName_eq hs.linked (hs.symbols_tree hid y hy)

/-! ### Changes that keep a session closed -/

theorem enter (hs : s.Closed) {scope : ScopeId} (h : s.table.HasScope scope) :
    Closed { s with current := scope } :=
  { hs with
    current_has := h
    symbol := fun id hid => (hs.symbol id hid).grows ⟨rfl, rfl, .refl _, .refl _⟩
    scope := fun id hid => (hs.scope id hid).grows ⟨rfl, rfl, .refl _, .refl _⟩ }

theorem form (hs : s.Closed) {op : TypeGraph.Operation} (hop : op.IsOn s.types)
    (hsymbols : ∀ y ∈ op.symbols, s.table.HasSymbol y) :
    Closed { s with types := op.after s.types } := by
  obtain ⟨hcanonical, hprefix⟩ := TypeGraph.Operation.after_canonical hs.types hop
  have hgrows : s.Grows { s with types := op.after s.types } := .of_types hprefix
  exact { hs with
    types := hcanonical
    base_has := fun id y q h =>
      TypeGraph.Operation.base_symbol_after hs.types hop hs.base_has hsymbols h
    symbol := fun id hid => (hs.symbol id hid).grows hgrows
    scope := fun id hid => (hs.scope id hid).grows hgrows }

/-- A table that has grown keeps a session closed if the symbols and scopes that are
new or have changed are closed. -/
theorem withTable (hs : s.Closed) {table : SymbolTable} (hgrows : s.table.Grows table)
    (hsymbol : ∀ id, table.HasSymbol id →
      (s.table.HasSymbol id ∧ table.symbol id = s.table.symbol id) ∨
        (table.symbol id).ClosedIn { s with table } id)
    (hscope : ∀ id, table.HasScope id →
      (s.table.HasScope id ∧ table.scope id = s.table.scope id) ∨
        (table.scope id).ClosedIn { s with table } id) :
    Closed { s with table } where
  types := hs.types
  base_has id y q h := hgrows.hasSymbol y (hs.base_has id y q h)
  global_has := hgrows.hasScope _ hs.global_has
  current_has := hgrows.hasScope _ hs.current_has
  symbol id hid := by
    rcases hsymbol id hid with ⟨hold, heq⟩ | h
    · exact heq.symm ▸ (hs.symbol id hold).grows (.of_table hgrows)
    · exact h
  scope id hid := by
    rcases hscope id hid with ⟨hold, heq⟩ | h
    · exact heq.symm ▸ (hs.scope id hold).grows (.of_table hgrows)
    · exact h

theorem modifySymbol (hs : s.Closed) {id : SymbolId} {f : Symbol → Symbol}
    (hgrows : s.table.HasSymbol id → (s.table.symbol id).Grows (f (s.table.symbol id)))
    (hclosed : s.table.HasSymbol id → (f (s.table.symbol id)).ClosedIn s id) :
    Closed { s with table := s.table.modifySymbol id f } := by
  have htable := SymbolTable.Grows.modifySymbol hgrows
  refine hs.withTable htable (fun j hj => ?_) fun j hj => .inl ⟨hj, rfl⟩
  rw [SymbolTable.hasSymbol_modifySymbol] at hj
  rw [SymbolTable.symbol_modifySymbol]
  split
  · rename_i hid
    obtain ⟨rfl, _⟩ := hid
    exact .inr ((hclosed hj).grows (.of_table htable))
  · exact .inl ⟨hj, rfl⟩

theorem modifyScope (hs : s.Closed) {id : ScopeId} {f : Scope → Scope}
    (hgrows : s.table.HasScope id → (s.table.scope id).Grows (f (s.table.scope id)))
    (hclosed : s.table.HasScope id → (f (s.table.scope id)).ClosedIn s id) :
    Closed { s with table := s.table.modifyScope id f } := by
  have htable := SymbolTable.Grows.modifyScope hgrows
  refine hs.withTable htable (fun j hj => .inl ⟨hj, rfl⟩) fun j hj => ?_
  rw [SymbolTable.hasScope_modifyScope] at hj
  rw [SymbolTable.scope_modifyScope]
  split
  · rename_i hid
    obtain ⟨rfl, _⟩ := hid
    exact .inr ((hclosed hj).grows (.of_table htable))
  · exact .inl ⟨hj, rfl⟩

theorem pushSymbol (hs : s.Closed) (key : String) {x : Symbol}
    (hx : x.ClosedIn s s.table.nextSymbol) :
    Closed { s with table := (s.table.pushSymbol key x).2 } := by
  have htable := SymbolTable.Grows.pushSymbol s.table key x
  refine hs.withTable htable (fun j hj => ?_) fun j hj => ?_
  · rw [SymbolTable.symbol_pushSymbol]
    split
    · rename_i hnew
      exact .inr (hnew ▸ hx.grows (.of_table htable))
    · rename_i hnew
      exact .inl ⟨((s.table.hasSymbol_pushSymbol key x j).mp hj).resolve_right hnew, rfl⟩
  · rw [SymbolTable.hasScope_pushSymbol] at hj
    rw [SymbolTable.scope_pushSymbol]
    split
    · have hnew : (s.table.pushSymbol key x).2.HasSymbol s.table.nextSymbol :=
        (s.table.hasSymbol_pushSymbol key x _).mpr (.inr rfl)
      have hold := (hs.scope j hj).grows (.of_table htable)
      refine .inr { hold with binding_has := fun b hb => ?_, declared_has := fun y hy => ?_ }
      · rcases List.mem_append.mp hb with hb | hb
        · exact hold.binding_has b hb
        · rw [List.mem_singleton.mp hb]
          exact hnew
      · rcases List.mem_append.mp hy with hy | hy
        · exact hold.declared_has y hy
        · rw [List.mem_singleton.mp hy]
          exact hnew
    · exact .inl ⟨hj, rfl⟩

theorem pushScope (hs : s.Closed) {x : Scope} (hx : x.ClosedIn s s.table.nextScope) :
    Closed { s with table := (s.table.pushScope x).2 } := by
  have htable := SymbolTable.Grows.pushScope s.table x
  refine hs.withTable htable (fun j hj => .inl ⟨hj, rfl⟩) fun j hj => ?_
  rw [SymbolTable.scope_pushScope]
  split
  · rename_i hnew
    exact .inr (hnew ▸ hx.grows (.of_table htable))
  · rename_i hnew
    exact .inl ⟨((s.table.hasScope_pushScope x j).mp hj).resolve_right hnew, rfl⟩

theorem expose (hs : s.Closed) (scope : ScopeId) (name : String) {id : SymbolId}
    (hid : s.table.HasSymbol id) : Closed { s with table := s.table.expose scope name id } := by
  refine hs.modifyScope (fun _ => .expose _ _ _) fun hscope => ?_
  have hold := hs.scope scope hscope
  unfold Scope.expose
  split
  · exact hold
  · refine { hold with binding_has := fun b hb => ?_ }
    rcases List.mem_append.mp hb with hb | hb
    · exact hold.binding_has b hb
    · rw [List.mem_singleton.mp hb]
      exact hid

theorem pushOwnScope (hs : s.Closed) {id : SymbolId} (hid : s.table.HasSymbol id)
    (hnone : (s.table.symbol id).scope = none) (kind : ScopeKind) {enclosing : ScopeId}
    (henclosing : s.table.HasScope enclosing) :
    Closed { s with table := s.table.pushOwnScope id kind enclosing } := by
  have hpushed := hs.pushScope (Scope.ClosedIn.fresh kind
    (fun o ho => Option.some.inj ho ▸ hid) fun e he => Option.some.inj he ▸ henclosing)
  refine hpushed.modifySymbol (fun _ => .of_scope hnone _) fun _ => ?_
  have hold := hpushed.symbol id hid
  refine { hold with scope_has := fun own hown => ?_ }
  rw [← Option.some.inj hown]
  exact (s.table.hasScope_pushScope _ _).mpr (.inr rfl)

end Closed

end Session

end TemplateAnalysis
