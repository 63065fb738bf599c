import TemplateAnalysis.Proofs.Outcome
import TemplateAnalysis.Proofs.SymbolTable.Growth
import TemplateAnalysis.SymbolTable.Naming
import TemplateAnalysis.SymbolTable.Values

/-!
# What stays as a table grows

In a table whose links lead to what is there, the names of a symbol, what a lookup
has found, and the values of expressions stay what they are however the table
grows. Template headers may get an owner later, but they do not contribute to names.
-/

namespace TemplateAnalysis

/-- More known names leave an expression the value that it has. -/
theorem Node.evaluate_persists {valueOf valueOf' : SymbolId → NamedValue}
    (h : ∀ id c, valueOf id = .known c → valueOf' id = .known c) :
    ∀ node : Node, Persists (node.evaluate valueOf) (node.evaluate valueOf')
  | .literal _ _ => .refl _
  | .paren inner _ => inner.evaluate_persists h
  | .name text symbol span => by
    rw [Node.evaluate, Node.evaluate]
    refine Persists.mapError (fun c hc => ?_) _
    cases hvalue : valueOf symbol with
    | known c' =>
      rw [hvalue] at hc
      rw [h symbol c' hvalue]
      exact hc
    | unknown | dependent | noValue =>
      rw [hvalue] at hc
      cases hc
  | .unary op operand span => (operand.evaluate_persists h).bind fun _ => .refl _
  | .binary op left right span => by
    have hright := right.evaluate_persists h
    cases op with
    | and =>
      refine (left.evaluate_persists h).bind fun a => ?_
      split
      · exact hright.bind fun _ => .refl _
      · exact .refl _
    | or =>
      refine (left.evaluate_persists h).bind fun a => ?_
      split
      · exact .refl _
      · exact hright.bind fun _ => .refl _
    | _ => exact (left.evaluate_persists h).bind fun a => hright.bind fun b => .refl _
  | .conditional condition whenTrue whenFalse _ => by
    refine (condition.evaluate_persists h).bind fun a => ?_
    split
    · exact whenTrue.evaluate_persists h
    · exact whenFalse.evaluate_persists h
  | .typeParameter _ _ _ | .valueParameter _ _ _ | .typeId _ _ _ | .resolvedType _ _ _
  | .templateId _ _ _ _ | .packExpansion _ _ | .base _ | .member _ | .staticAssert _
  | .classBody _ => .refl _
termination_by structural node => node

theorem Entity.Grows.namedValue_known {e f : Entity} (h : e.Grows f) {c : Constant}
    (hc : e.namedValue = .known c) : f.namedValue = .known c := by
  cases h with
  | same => exact hc
  | classType _ _ | enumeration _ _ | template _ _ _ => cases hc
  | @object data data' _ _ value =>
    cases hvalue : data.value with
    | none =>
      rw [namedValue, hvalue] at hc
      cases hc
    | some c' =>
      rw [namedValue, hvalue] at hc
      rw [namedValue, value c' hvalue]
      exact hc

namespace SymbolTable

variable {t u : SymbolTable}

/-- Scopes stand inside of older ones, and every link leads to a symbol or a scope
of the table. -/
structure Linked (t : SymbolTable) : Prop where
  global_has : t.HasScope .global
  enclosing_lt : ∀ id e, (t.scope id).enclosing = some e → e.index < id.index
  owner_has : ∀ id o, (t.scope id).owner = some o → t.HasSymbol o
  binding_has : ∀ id, ∀ b ∈ (t.scope id).bindings, t.HasSymbol b.2
  declared_has : ∀ id, ∀ y ∈ (t.scope id).declared, t.HasSymbol y
  symbol_enclosing_has : ∀ id, t.HasSymbol id → t.HasScope (t.symbol id).enclosing
  symbol_scope_has : ∀ id own, (t.symbol id).scope = some own → t.HasScope own

theorem symbol_eq_default {id : SymbolId} (h : ¬ t.HasSymbol id) : t.symbol id = default := by
  rw [symbol, Array.getElem?_eq_none (by simpa [HasSymbol, symbolCount] using h), Option.getD_none]

/-- What is not in a table reads as a namespace. -/
theorem has_of_entity {id : SymbolId} {e : Entity} (h : (t.symbol id).entity = e)
    (he : e ≠ .nameSpace) : t.HasSymbol id := by
  by_contra hnot
  rw [symbol_eq_default hnot] at h
  exact he h.symm

theorem scope_eq_default {id : ScopeId} (h : ¬ t.HasScope id) : t.scope id = default := by
  rw [scope, Array.getElem?_eq_none (by simpa [HasScope, scopeCount] using h), Option.getD_none]

theorem hasScope_of_enclosing {id e : ScopeId} (h : (t.scope id).enclosing = some e) :
    t.HasScope id := by
  by_contra hn
  rw [scope_eq_default hn] at h
  cases h

theorem Linked.enclosing_has (ht : t.Linked) {id e : ScopeId}
    (h : (t.scope id).enclosing = some e) : t.HasScope e :=
  Nat.lt_trans (ht.enclosing_lt id e h) (hasScope_of_enclosing h)

theorem Linked.named_has (ht : t.Linked) {scope : ScopeId} {name : String} {id : SymbolId}
    (h : id ∈ (t.scope scope).named name) : t.HasSymbol id := by
  obtain ⟨b, hb, rfl⟩ := List.mem_map.mp h
  exact ht.binding_has scope b (List.mem_of_mem_filter hb)

/-! ### Names -/

theorem mem_scopesWithin_has (ht : t.Linked) {depth : Nat} {scope s : ScopeId}
    (hscope : t.HasScope scope) (hs : s ∈ t.scopesWithin depth scope) : t.HasScope s := by
  induction depth generalizing scope with
  | zero =>
    rw [List.mem_singleton.mp hs]
    exact hscope
  | succ depth ih =>
    rw [scopesWithin] at hs
    split at hs
    · rw [List.mem_singleton.mp hs]
      exact hscope
    · rename_i e he
      rcases List.mem_cons.mp hs with rfl | hs
      · exact hscope
      · exact ih (ht.enclosing_has he) hs

theorem Grows.scopesWithin_eq (h : t.Grows u) (ht : t.Linked) (depth : Nat) {scope : ScopeId}
    (hscope : t.HasScope scope) : u.scopesWithin depth scope = t.scopesWithin depth scope := by
  induction depth generalizing scope with
  | zero => rfl
  | succ depth ih =>
    rw [scopesWithin, scopesWithin, (h.scope scope hscope).enclosing]
    split
    · rfl
    · rename_i e he
      rw [ih (ht.enclosing_has he)]

theorem Grows.enclosingScopes_eq (h : t.Grows u) (ht : t.Linked) {scope : ScopeId}
    (hscope : t.HasScope scope) : u.enclosingScopes scope = t.enclosingScopes scope :=
  h.scopesWithin_eq ht scope.index hscope

theorem Grows.ownerChain_eq (h : t.Grows u) (ht : t.Linked) {scope : ScopeId}
    (hscope : t.HasScope scope) : u.ownerChain scope = t.ownerChain scope := by
  rw [ownerChain, ownerChain, h.enclosingScopes_eq ht hscope]
  refine congrArg List.reverse (List.filterMap_congr fun s hs => ?_)
  have hgrows := h.scope s (mem_scopesWithin_has ht hscope hs)
  rw [hgrows.kind]
  split
  · rfl
  · rename_i hkind
    rw [hgrows.owner_eq hkind]

theorem mem_ownerChain_has (ht : t.Linked) {scope : ScopeId} {id : SymbolId}
    (h : id ∈ t.ownerChain scope) : t.HasSymbol id := by
  obtain ⟨s, _, hs⟩ := List.mem_filterMap.mp (List.mem_reverse.mp h)
  split at hs
  · cases hs
  · exact ht.owner_has s id hs

theorem Grows.scopePath_eq (h : t.Grows u) (ht : t.Linked) {scope : ScopeId}
    (hscope : t.HasScope scope) : u.scopePath scope = t.scopePath scope := by
  rw [scopePath, scopePath, h.ownerChain_eq ht hscope]
  refine congrArg _ (List.map_congr_left fun id hid => ?_)
  exact (h.symbol id (mem_ownerChain_has ht hid)).name

theorem Grows.qualifiedName_eq (h : t.Grows u) (ht : t.Linked) {id : SymbolId}
    (hid : t.HasSymbol id) : u.qualifiedName id = t.qualifiedName id := by
  have hgrows := h.symbol id hid
  rw [qualifiedName, qualifiedName, hgrows.name, hgrows.enclosing, qualify, qualify,
    h.scopePath_eq ht (ht.symbol_enclosing_has id hid)]

theorem Grows.nestedName_eq (h : t.Grows u) (ht : t.Linked) {id : SymbolId}
    (hid : t.HasSymbol id) : u.nestedName id = t.nestedName id := by
  have hgrows := h.symbol id hid
  have howners : (t.ownerChain (t.symbol id).enclosing).map (fun o => (u.symbol o).mangled) =
      (t.ownerChain (t.symbol id).enclosing).map fun o => (t.symbol o).mangled :=
    List.map_congr_left fun o ho => (h.symbol o (mem_ownerChain_has ht ho)).mangled
  rw [nestedName, nestedName, hgrows.enclosing, hgrows.mangled,
    h.ownerChain_eq ht (ht.symbol_enclosing_has id hid)]
  cases hchain : t.ownerChain (t.symbol id).enclosing with
  | nil => rfl
  | cons o os =>
    rw [hchain] at howners
    simp only [howners]

/-! ### Lookups and values -/

theorem find?_of_prefix {α : Type} {p q : α → Bool} {xs ys : List α} (h : xs <+: ys)
    (hpq : ∀ x ∈ xs, p x = q x) {x : α} (hx : xs.find? p = some x) : ys.find? q = some x := by
  obtain ⟨more, rfl⟩ := h
  have hfind : xs.find? q = xs.find? p := by
    clear hx
    induction xs with
    | nil => rfl
    | cons y ys ih =>
      rw [List.find?_cons, List.find?_cons, hpq y (by simp),
        ih fun z hz => hpq z (by simp [hz])]
  rw [List.find?_append, hfind, hx, Option.some_or]

theorem Grows.lookupIn_eq (h : t.Grows u) (ht : t.Linked) {scope : ScopeId} {name : String}
    {accepted : KindSet} {id : SymbolId} (hscope : t.HasScope scope)
    (hid : t.lookupIn scope name accepted = some id) :
    u.lookupIn scope name accepted = some id := by
  refine find?_of_prefix ((h.scope scope hscope).named name) (fun y hy => ?_) hid
  rw [(h.symbol y (ht.named_has hy)).kind_eq]

theorem Grows.valueOf_known (h : t.Grows u) {id : SymbolId} {c : Constant}
    (hc : t.valueOf id = .known c) : u.valueOf id = .known c := by
  by_cases hid : t.HasSymbol id
  · exact (h.symbol id hid).entity.namedValue_known hc
  · rw [valueOf, symbol_eq_default hid] at hc
    cases hc

theorem Grows.evaluate_persists (h : t.Grows u) (node : Node) :
    Persists (t.evaluate node) (u.evaluate node) :=
  node.evaluate_persists fun _ _ => h.valueOf_known

end SymbolTable

end TemplateAnalysis
