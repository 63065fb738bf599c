import TemplateAnalysis.Proofs.Session.Additions
import TemplateAnalysis.Proofs.Session.Runs

/-!
# Identities

A symbol is identified by its names and its place, a type by its label and its texts.
Both stay what they are in every later session. The fingerprint of a symbol is taken
when the symbol is declared, from the names of the scopes around it; since these names
stay, it is the fingerprint that the table gives the symbol at any later time.
-/

namespace TemplateAnalysis

namespace SymbolTable

variable {t u : SymbolTable}

/-- The fingerprint that the names of a table give a symbol: instances are told apart by
their keys, functions by their signatures. -/
def fingerprintOf (t : SymbolTable) (x : Symbol) : Fingerprint :=
  if x.origin?.isSome then .ofInstance (t.scopePath x.enclosing) x.mangled
  else match x.entity with
    | .function data => .ofFunction (t.qualify x.enclosing x.name) data.signature
    | _ => .ofName (t.qualify x.enclosing x.name)

theorem fingerprintOf_instance {x : Symbol} (h : x.origin?.isSome = true) :
    t.fingerprintOf x = .ofInstance (t.scopePath x.enclosing) x.mangled := by
  rw [fingerprintOf, if_pos h]

theorem fingerprintOf_function {x : Symbol} {data : FunctionData} (h : x.entity = .function data) :
    t.fingerprintOf x = .ofFunction (t.qualify x.enclosing x.name) data.signature := by
  simp [fingerprintOf, Symbol.origin?, Entity.origin?, Entity.class?, h]

theorem fingerprintOf_entity {x : Symbol} (h : x.origin? = none) (hkind : x.kind ≠ .function) :
    t.fingerprintOf x = .ofName (t.qualify x.enclosing x.name) := by
  rw [fingerprintOf, h]
  cases hentity : x.entity with
  | function data => exact absurd (congrArg Entity.kind hentity) hkind
  | _ => rfl

/-- A table that has grown gives a symbol the fingerprint that it has given it before. -/
theorem Grows.fingerprintOf_eq (h : t.Grows u) (ht : t.Linked) {x y : Symbol} (hxy : x.Grows y)
    (hx : t.HasScope x.enclosing) : u.fingerprintOf y = t.fingerprintOf x := by
  have hpath := h.scopePath_eq ht hx
  have hname : u.qualify y.enclosing y.name = t.qualify x.enclosing x.name := by
    rw [qualify, qualify, hxy.enclosing, hxy.name, hpath]
  by_cases horigin : x.origin?.isSome = true
  · have horigin' : y.origin?.isSome = true := hxy.origin?_eq ▸ horigin
    rw [fingerprintOf_instance horigin, fingerprintOf_instance horigin', hxy.enclosing, hpath,
      hxy.mangled]
  · have hplain : x.origin? = none := by simpa using horigin
    have hplain' : y.origin? = none := hxy.origin?_eq.trans hplain
    by_cases hkind : x.kind = .function
    · have hentity := hxy.entity
      cases hx : x.entity with
      | function data =>
        rw [hx] at hentity
        cases hy : y.entity with
        | function data' =>
          rw [hy] at hentity
          cases hentity
          rw [fingerprintOf_function hx, fingerprintOf_function hy, hname]
        | _ =>
          rw [hy] at hentity
          cases hentity
      | _ =>
        rw [Symbol.kind, hx] at hkind
        cases hkind
    · rw [fingerprintOf_entity hplain hkind,
        fingerprintOf_entity hplain' (hxy.kind_eq ▸ hkind), hname]

def Fingerprinted (t : SymbolTable) : Prop :=
  ∀ id, t.HasSymbol id → (t.symbol id).fingerprint = t.fingerprintOf (t.symbol id)

namespace Fingerprinted

/-- Without new symbols, what grows does not matter. -/
theorem of_grows (h : t.Fingerprinted) (ht : t.Linked) (hgrows : t.Grows u)
    (hold : ∀ id, u.HasSymbol id → t.HasSymbol id) : u.Fingerprinted := by
  intro id hid
  have hid := hold id hid
  have hsymbol := hgrows.symbol id hid
  rw [hsymbol.fingerprint, h id hid,
    hgrows.fingerprintOf_eq ht hsymbol (ht.symbol_enclosing_has id hid)]

/-- A new symbol has the fingerprint that the table gave it before it was there. -/
theorem of_pushSymbol (h : t.Fingerprinted) (ht : t.Linked) {key : String} {x : Symbol}
    (hscope : t.HasScope x.enclosing) (hx : x.fingerprint = t.fingerprintOf x)
    (hgrows : (t.pushSymbol key x).2.Grows u)
    (hold : ∀ id, u.HasSymbol id → (t.pushSymbol key x).2.HasSymbol id) : u.Fingerprinted := by
  have hgrown := (Grows.pushSymbol t key x).trans hgrows
  intro id hid
  have hid := hold id hid
  rcases (t.hasSymbol_pushSymbol key x id).mp hid with hid' | rfl
  · have hsymbol := hgrown.symbol id hid'
    rw [hsymbol.fingerprint, h id hid',
      hgrown.fingerprintOf_eq ht hsymbol (ht.symbol_enclosing_has id hid')]
  · have hsymbol := hgrows.symbol _ hid
    rw [symbol_pushSymbol, if_pos rfl] at hsymbol
    rw [hsymbol.fingerprint, hx, hgrown.fingerprintOf_eq ht hsymbol hscope]

theorem of_insertEntity (h : t.Fingerprinted) (ht : t.Linked) {scope : ScopeId}
    (hscope : t.HasScope scope) {name : String} {entity : Entity} {span : Span}
    (hplain : entity.origin? = none) (hkind : entity.kind ≠ .function)
    (hgrows : (t.insertEntity scope name entity span).2.Grows u)
    (hold : ∀ id, u.HasSymbol id → (t.insertEntity scope name entity span).2.HasSymbol id) :
    u.Fingerprinted := by
  refine h.of_pushSymbol ht hscope ?_ hgrows hold
  rw [fingerprintOf_entity]
  · exact hplain
  · exact hkind

end Fingerprinted

/-- What identifies a symbol is the same in two tables. -/
structure SameSymbol (t u : SymbolTable) (id : SymbolId) : Prop where
  name : (u.symbol id).name = (t.symbol id).name
  mangled : (u.symbol id).mangled = (t.symbol id).mangled
  fingerprint : (u.symbol id).fingerprint = (t.symbol id).fingerprint
  kind : (u.symbol id).kind = (t.symbol id).kind
  enclosing : (u.symbol id).enclosing = (t.symbol id).enclosing
  qualifiedName : u.qualifiedName id = t.qualifiedName id
  nestedName : u.nestedName id = t.nestedName id

theorem Grows.sameSymbol (h : t.Grows u) (ht : t.Linked) {id : SymbolId} (hid : t.HasSymbol id) :
    SameSymbol t u id where
  name := (h.symbol id hid).name
  mangled := (h.symbol id hid).mangled
  fingerprint := (h.symbol id hid).fingerprint
  kind := (h.symbol id hid).kind_eq
  enclosing := (h.symbol id hid).enclosing
  qualifiedName := h.qualifiedName_eq ht hid
  nestedName := h.nestedName_eq ht hid

end SymbolTable

namespace Session

variable {s u : Session}

/-- What identifies a type is the same in two sessions. -/
structure SameType (s u : Session) (id : TypeId) : Prop where
  label : u.types.label? id = s.types.label? id
  encoding : u.table.typeEncoding u.types id = s.table.typeEncoding s.types id
  text : u.table.typeText u.types id = s.table.typeText s.types id

theorem Grows.sameType (h : s.Grows u) (hs : s.Closed) (hu : u.Closed) {id : TypeId}
    (hid : s.types.Has id) : SameType s u id where
  label := by
    obtain ⟨label, hlabel, _⟩ := TypeGraph.exists_label? hid
    rw [hlabel, h.types id label hlabel]
  encoding := hs.typeEncoding_eq hu h hid
  text := hs.typeText_eq hu h hid

/-- Every change gives a new symbol the fingerprint that its names give it. -/
theorem Change.fingerprinted {role : Role} (hs : s.Closed) (h : s.Change role u)
    (hprinted : s.table.Fingerprinted) : u.table.Fingerprinted := by
  have ht := hs.linked
  have hgrows := (h.grows hs).table
  cases h with
  | enter | form => exact hprinted
  | edit id f has edit =>
    exact hprinted.of_grows ht hgrows fun j hj => (s.table.hasSymbol_modifySymbol id j f).mp hj
  | introduce scope name entity span has closed unnamed introduced known =>
    have hplain := introduced.origin?_eq_none
    have hkind := introduced.kind_ne_function
    unfold SymbolTable.introduce
    cases SymbolTable.ownScopeKind? entity.kind with
    | none => exact hprinted.of_insertEntity ht has hplain hkind (.refl _) fun _ h => h
    | some kind =>
      refine hprinted.of_insertEntity ht has hplain hkind (.pushOwnScope ?_ kind scope)
        fun j hj => ?_
      · exact congrArg Symbol.scope (s.table.symbol_insertEntity scope name entity span)
      · exact (SymbolTable.hasSymbol_modifySymbol _ _ j _).mp hj
  | overload scope name type signature keywords span table has known encoding eq =>
    obtain ⟨_, _, _, rfl⟩ := SymbolTable.declareOverload_eq eq
    refine hprinted.of_pushSymbol ht has ?_ (.refl _) fun _ h => h
    rw [SymbolTable.fingerprintOf_function rfl]
  | register template data keyword args shown span has =>
    refine hprinted.of_pushSymbol ht ?_ ?_ (.pushOwnScope ?_ .classBody _) fun j hj => ?_
    · exact (hs.symbol template has).enclosing_has
    · rw [SymbolTable.fingerprintOf_instance rfl]
    · exact congrArg Symbol.scope ((s.table.symbol_pushSymbol _ _ _).trans (if_pos rfl))
    · exact (SymbolTable.hasSymbol_modifySymbol _ _ j _).mp hj
  | openHeader parameters valid known =>
    refine Closed.insertParameters_induction _ (fun v hv hheader h index p _ => ?_)
      (hs.pushHeader known) ((s.table.hasScope_pushScope _ _).mpr (.inr rfl))
      (hprinted.of_grows ht (.pushScope _ _) fun _ h => h)
    exact h.of_insertEntity hv.linked hheader rfl (by simp [Entity.kind]) (.refl _) fun _ h => h
  | template header enclosing name templated span table isOpen around unnamed eq =>
    obtain ⟨_, _, rfl⟩ := SymbolTable.introduceTemplate_eq eq
    refine hprinted.of_insertEntity ht (ht.enclosing_has around) rfl (by simp [Entity.kind])
      (SymbolTable.grows_ownHeader isOpen) fun j hj => ?_
    exact (SymbolTable.hasSymbol_modifySymbol _ _ j _).mp hj
  | adopt header own existing isOpen scope =>
    have hexpose : SymbolTable.Extends (fun _ => False) s.table
      (s.table.aliasParameters header own) := .foldl_expose own _ (.refl _)
    exact hprinted.of_grows ht hgrows fun j hj => (hexpose.added j hj).resolve_right id
  | enumerate id data site name value span entity own around free =>
    have hown := ht.symbol_scope_has id site.own own
    have hkind : (Entity.enumerator value).kind ≠ .function := by simp [Entity.kind]
    unfold EnumSite.insert
    cases site.around with
    | none => exact hprinted.of_insertEntity ht hown rfl hkind (.refl _) fun _ h => h
    | some scope =>
      exact hprinted.of_insertEntity ht hown rfl hkind (.expose _ _ _ _) fun _ h => h

theorem Run.fingerprinted {config : Config} (h : (start config).Run s) : s.table.Fingerprinted :=
  h.invariant (·.table.Fingerprinted) (.start config)
    (fun _ _ hv hchange => hchange.fingerprinted hv) (fun _ _ h => h)
    fun _ hid => absurd hid (Nat.not_lt_zero _)

/-- At every later point of an analysis, also behind operations that fail, a symbol has the
names, the fingerprint, the kind and the place that it had, and a type its label and its
texts. The fingerprint of a symbol is always the one that the present names of the table
give it. -/
theorem identities_stable {config : Config} (hs : (start config).Run s) (hu : s.Run u) :
    (∀ id, s.table.HasSymbol id → SymbolTable.SameSymbol s.table u.table id) ∧
    (∀ id, s.types.Has id → SameType s u id) ∧
    ∀ id, u.table.HasSymbol id →
      (u.table.symbol id).fingerprint = u.table.fingerprintOf (u.table.symbol id) := by
  have hclosed := hs.closed
  obtain ⟨hlater, hgrows⟩ := hu.preserves hclosed
  refine ⟨fun id hid => ?_, fun id hid => ?_, (hs.trans hu).fingerprinted⟩
  · exact hgrows.table.sameSymbol hclosed.linked hid
  · exact hgrows.sameType hclosed hlater hid

/-- The parameter of a header, before and after the header gets a template as its owner:
the path of the header, and so the fingerprint, does not change. -/
theorem identities_stable_of_header :
    let s := (Operation.beginTemplate [⟨"T", .type, none, false, none, .synthesized⟩]
      .synthesized).after (start .standard)
    let u := (Operation.declareClass "Box" .structKey .synthesized).after s
    SymbolTable.SameSymbol s.table u.table ⟨0⟩ ∧ (s.table.scope ⟨1⟩).owner = none ∧
      (u.table.scope ⟨1⟩).owner = some ⟨1⟩ := by
  intro s u
  have hs : (start .standard).Run s :=
    Run.refl.step _ .of_handles_nil
  have hu : s.Run u := Run.refl.step _ .of_handles_nil
  refine ⟨(identities_stable hs hu).1 ⟨0⟩ ?_, by decide +kernel, by decide +kernel⟩
  exact show 0 < s.table.symbolCount by decide +kernel

end Session

end TemplateAnalysis
