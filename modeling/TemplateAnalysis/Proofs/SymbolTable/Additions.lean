import TemplateAnalysis.Proofs.SymbolTable.Growth

/-!
# What is added to a symbol table

Beside what a table had, a table that has grown holds new symbols and new bindings.
`Adds new t u` says that the new symbols satisfy `new`, and that a class is bound to no
name but the one it is filed under: an instance under its key, any other class under
its own name. `Extends new t u` says that the symbols which were there are as they were,
and that the new ones are entities that satisfy `new`.
-/

namespace TemplateAnalysis

def Entity.origin? (e : Entity) : Option InstanceOrigin := e.class?.bind (·.origin)

def Symbol.origin? (x : Symbol) : Option InstanceOrigin := x.entity.origin?

/-- The name that a class is found under. -/
def Symbol.filedAs (x : Symbol) : String := if x.origin?.isSome then x.mangled else x.name

theorem Symbol.Grows.origin?_eq {x y : Symbol} (h : x.Grows y) : y.origin? = x.origin? := by
  have hentity := h.entity
  rw [Symbol.origin?, Symbol.origin?]
  generalize x.entity = e at hentity
  generalize y.entity = f at hentity
  cases hentity with
  | classType origin => exact origin
  | _ => rfl

theorem Symbol.kind_of_origin? {x : Symbol} (h : x.origin?.isSome = true) :
    x.kind = .classType := by
  rw [kind]
  cases hentity : x.entity with
  | classType data => rfl
  | _ => simp [origin?, Entity.origin?, Entity.class?, hentity] at h

theorem Symbol.filedAs_eq_name {x : Symbol} (h : x.origin? = none) : x.filedAs = x.name := by
  rw [filedAs, h]
  rfl

theorem Symbol.Grows.filedAs_eq {x y : Symbol} (h : x.Grows y) : y.filedAs = x.filedAs := by
  rw [Symbol.filedAs, Symbol.filedAs, h.origin?_eq, h.mangled, h.name]

namespace SymbolTable

def IsFiled (t : SymbolTable) (b : String × SymbolId) : Prop :=
  t.HasSymbol b.2 ∧ ((t.symbol b.2).kind = .classType → b.1 = (t.symbol b.2).filedAs)

theorem IsFiled.grows {t u : SymbolTable} {b : String × SymbolId} (h : t.IsFiled b)
    (hgrows : t.Grows u) : u.IsFiled b := by
  have hsymbol := hgrows.symbol b.2 h.1
  refine ⟨hgrows.hasSymbol _ h.1, fun hkind => ?_⟩
  rw [hsymbol.filedAs_eq]
  exact h.2 (hsymbol.kind_eq ▸ hkind)

/-- A table with new symbols and new bindings. -/
structure Adds (new : Symbol → Prop) (t u : SymbolTable) : Prop where
  grows : t.Grows u
  symbol : ∀ id, u.HasSymbol id → t.HasSymbol id ∨ new (u.symbol id)
  binding : ∀ scope, ∀ b ∈ (u.scope scope).bindings, b ∈ (t.scope scope).bindings ∨ u.IsFiled b

namespace Adds

variable {new : Symbol → Prop} {t u v : SymbolTable}

theorem refl (t : SymbolTable) : Adds new t t :=
  ⟨.refl t, fun _ h => .inl h, fun _ _ h => .inl h⟩

theorem trans (hnew : ∀ x y : Symbol, x.Grows y → new x → new y) (htu : Adds new t u)
    (huv : Adds new u v) : Adds new t v where
  grows := htu.grows.trans huv.grows
  symbol id h := by
    rcases huv.symbol id h with hu | hu
    · exact (htu.symbol id hu).imp_right (hnew _ _ (huv.grows.symbol id hu))
    · exact .inr hu
  binding scope b h := by
    rcases huv.binding scope b h with hu | hu
    · exact (htu.binding scope b hu).imp_right fun hfiled => hfiled.grows huv.grows
    · exact .inr hu

theorem pushSymbol (t : SymbolTable) {key : String} {x : Symbol} (hx : new x)
    (hkey : x.kind = .classType → key = x.filedAs) : Adds new t (t.pushSymbol key x).2 where
  grows := .pushSymbol t key x
  symbol id h := by
    rw [symbol_pushSymbol]
    rcases (t.hasSymbol_pushSymbol key x id).mp h with h | rfl
    · exact .inl h
    · exact .inr (by rwa [if_pos rfl])
  binding scope b h := by
    rw [scope_pushSymbol] at h
    split at h
    · rcases List.mem_append.mp h with h | h
      · exact .inl h
      · rw [List.mem_singleton.mp h]
        refine .inr ⟨(t.hasSymbol_pushSymbol key x _).mpr (.inr rfl), ?_⟩
        rw [symbol_pushSymbol, if_pos rfl]
        exact hkey
    · exact .inl h

theorem modifySymbol {id : SymbolId} {f : Symbol → Symbol}
    (h : t.HasSymbol id → (t.symbol id).Grows (f (t.symbol id))) :
    Adds new t (t.modifySymbol id f) where
  grows := .modifySymbol h
  symbol j hj := .inl ((t.hasSymbol_modifySymbol id j f).mp hj)
  binding _ _ hb := .inl hb

theorem modifyScope {id : ScopeId} {f : Scope → Scope}
    (h : t.HasScope id → (t.scope id).Grows (f (t.scope id)))
    (hf : ∀ b ∈ (f (t.scope id)).bindings, b ∈ (t.scope id).bindings ∨ t.IsFiled b) :
    Adds new t (t.modifyScope id f) where
  grows := .modifyScope h
  symbol _ hj := .inl hj
  binding scope b hb := by
    rw [scope_modifyScope] at hb
    split at hb
    · rename_i hid
      obtain ⟨rfl, _⟩ := hid
      exact hf b hb
    · exact .inl hb

theorem pushScope (t : SymbolTable) {x : Scope} (hx : x.bindings = []) :
    Adds new t (t.pushScope x).2 where
  grows := .pushScope t x
  symbol _ hj := .inl hj
  binding scope b hb := by
    rw [scope_pushScope] at hb
    split at hb
    · rw [hx] at hb
      cases hb
    · exact .inl hb

theorem expose (t : SymbolTable) (scope : ScopeId) (name : String) {id : SymbolId}
    (hid : t.HasSymbol id) (hkind : (t.symbol id).kind ≠ .classType) :
    Adds new t (t.expose scope name id) := by
  refine modifyScope (fun _ => .expose _ _ _) fun b hb => ?_
  unfold Scope.expose at hb
  split at hb
  · exact .inl hb
  · rcases List.mem_append.mp hb with hb | hb
    · exact .inl hb
    · rw [List.mem_singleton.mp hb]
      exact .inr ⟨hid, fun h => absurd h hkind⟩

theorem pushOwnScope (hnew : ∀ x y : Symbol, x.Grows y → new x → new y) {id : SymbolId}
    (h : (t.symbol id).scope = none) (kind : ScopeKind) (enclosing : ScopeId) :
    Adds new t (t.pushOwnScope id kind enclosing) :=
  (pushScope t rfl).trans hnew (modifySymbol fun _ => .of_scope h _)

end Adds

/-- A table in which the symbols of another one are as they were, beside new ones. -/
structure Extends (new : Entity → Prop) (t u : SymbolTable) : Prop where
  hasSymbol : ∀ id, t.HasSymbol id → u.HasSymbol id
  old : ∀ id, t.HasSymbol id → u.symbol id = t.symbol id
  added : ∀ id, u.HasSymbol id → t.HasSymbol id ∨ new (u.symbol id).entity

namespace Extends

variable {new : Entity → Prop} {t u v : SymbolTable}

theorem refl (t : SymbolTable) : Extends new t t :=
  ⟨fun _ h => h, fun _ _ => rfl, fun _ h => .inl h⟩

theorem of_symbol_eq (h : Extends new t u) (hhas : ∀ id, v.HasSymbol id ↔ u.HasSymbol id)
    (hsymbol : ∀ id, v.symbol id = u.symbol id) : Extends new t v where
  hasSymbol id hid := (hhas id).mpr (h.hasSymbol id hid)
  old id hid := (hsymbol id).trans (h.old id hid)
  added id hid := by
    rw [hsymbol id]
    exact h.added id ((hhas id).mp hid)

theorem modifyScope (h : Extends new t u) (id : ScopeId) (f : Scope → Scope) :
    Extends new t (u.modifyScope id f) := h.of_symbol_eq (fun _ => .rfl) fun _ => rfl

theorem pushScope (h : Extends new t u) (x : Scope) : Extends new t (u.pushScope x).2 :=
  h.of_symbol_eq (fun _ => .rfl) fun _ => rfl

theorem pushSymbol (h : Extends new t u) (key : String) {x : Symbol} (hx : new x.entity) :
    Extends new t (u.pushSymbol key x).2 where
  hasSymbol id hid := (u.hasSymbol_pushSymbol key x id).mpr (.inl (h.hasSymbol id hid))
  old id hid := by
    rw [symbol_pushSymbol, if_neg, h.old id hid]
    rintro rfl
    exact u.not_hasSymbol_nextSymbol (h.hasSymbol _ hid)
  added id hid := by
    rw [symbol_pushSymbol]
    rcases (u.hasSymbol_pushSymbol key x id).mp hid with hid | rfl
    · rw [if_neg]
      · exact h.added id hid
      · rintro rfl
        exact u.not_hasSymbol_nextSymbol hid
    · exact .inr (by rwa [if_pos rfl])

theorem modifySymbol (h : Extends new t u) {id : SymbolId} (hid : ¬ t.HasSymbol id)
    {f : Symbol → Symbol} (hf : ∀ x, (f x).entity = x.entity) :
    Extends new t (u.modifySymbol id f) where
  hasSymbol j hj := (u.hasSymbol_modifySymbol id j f).mpr (h.hasSymbol j hj)
  old j hj := by
    rw [symbol_modifySymbol, if_neg, h.old j hj]
    rintro ⟨rfl, _⟩
    exact hid hj
  added j hj := by
    refine (h.added j ((u.hasSymbol_modifySymbol id j f).mp hj)).imp_right fun hnew => ?_
    rw [symbol_modifySymbol]
    split
    · rename_i hid'
      obtain ⟨rfl, _⟩ := hid'
      rwa [hf]
    · exact hnew

theorem pushOwnScope (h : Extends new t u) {id : SymbolId} (hid : ¬ t.HasSymbol id)
    (kind : ScopeKind) (enclosing : ScopeId) :
    Extends new t (u.pushOwnScope id kind enclosing) :=
  (h.pushScope _).modifySymbol hid fun _ => rfl

end Extends

end SymbolTable

end TemplateAnalysis
