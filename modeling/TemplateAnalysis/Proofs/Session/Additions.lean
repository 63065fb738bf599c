import TemplateAnalysis.Proofs.Session.Preservation
import TemplateAnalysis.Proofs.SymbolTable.Additions

/-!
# What a change adds to a session

A symbol that a change adds is a declaration with a sized name, an overload whose name
carries its signature, or an instance under its key. Whatever holds of these, and is
kept as symbols grow, holds of every symbol that a session comes to have. A change that
adds symbols edits none of those that were there.
-/

namespace TemplateAnalysis

open Session

/-- Whether a value can be that of an enumerator in a scope, which is that of an enum: it
is of the fundamental type of the enum, if it has one. -/
def Session.TakesEnumerator (s : Session) (scope : ScopeId) (value : Constant) : Prop :=
  ∃ id data, s.table.HasSymbol id ∧ (s.table.symbol id).entity = .enumeration data ∧
    (s.table.symbol id).scope = some scope ∧ value.IsOf (data.underlying.bind s.types.primitive?)

inductive Symbol.IsAdded (s : Session) (x : Symbol) : Prop
  | declared (kind : x.kind ≠ .function) (plain : x.origin? = none)
    (mangled : x.mangled = sourceName x.name)
    (valued : ∀ value, x.entity = .enumerator value → s.TakesEnumerator x.enclosing value)
  | overload (type : TypeId) (keywords : KeywordSet)
    (signature : String) (entity : x.entity = .function ⟨type, keywords, signature⟩)
    (known : s.types.Has type) (encoding : s.table.signature? s.types type = some signature)
    (mangled : x.mangled = sourceName x.name ++ signature)
  | registered (kind : x.kind = .classType) (template : SymbolId) (args : Arguments)
    (origin : x.origin? = some ⟨template, args⟩) (has : s.table.HasSymbol template)
    (templated : (s.table.symbol template).kind = .template)
    (known : AllKnown s.Known (handlesOfArguments args))
    (mangled : x.mangled = instanceKey (s.table.typeEncoding s.types)
      (s.table.symbol template).mangled args)

theorem Symbol.IsAdded.grows {s : Session} (x y : Symbol) (h : x.Grows y) (hx : x.IsAdded s) :
    y.IsAdded s := by
  cases hx with
  | declared kind plain mangled valued =>
    refine .declared (h.kind_eq ▸ kind) (h.origin?_eq ▸ plain) (by rw [h.mangled, h.name, mangled])
      fun value hvalue => ?_
    rw [h.enclosing]
    exact valued value (h.enumerator_iff.mp hvalue)
  | overload type keywords signature entity known encoding mangled =>
    exact .overload type keywords signature (h.function_iff.mpr entity) known
      encoding (by rw [h.mangled, h.name, mangled])
  | registered kind template args origin has templated known mangled =>
    exact .registered (h.kind_eq ▸ kind) template args (h.origin?_eq ▸ origin) has templated known
      (h.mangled.trans mangled)

theorem Entity.IsIntroduced.origin?_eq_none {e : Entity} (h : e.IsIntroduced) :
    e.origin? = none := by
  cases e with
  | classType data => exact h.2.2
  | _ => rfl

theorem Entity.IsIntroduced.kind_ne_function {e : Entity} (h : e.IsIntroduced) :
    e.kind ≠ .function := by
  rintro hkind
  cases e <;> first | exact h | cases hkind

theorem Entity.IsIntroduced.ne_enumerator {e : Entity} (h : e.IsIntroduced) (value : Constant) :
    e ≠ .enumerator value := by
  rintro rfl
  exact h

namespace SymbolTable.Adds

variable {s : Session}

theorem insertEntity (t : SymbolTable) (scope : ScopeId) (name : String) (entity : Entity)
    (span : Span) (hkind : entity.kind ≠ .function) (hplain : entity.origin? = none)
    (hvalued : ∀ value, entity = .enumerator value → s.TakesEnumerator scope value) :
    Adds (Symbol.IsAdded s) t (t.insertEntity scope name entity span).2 := by
  refine pushSymbol t (.declared hkind hplain rfl hvalued) fun _ => ?_
  rw [Symbol.filedAs_eq_name]
  exact hplain

theorem introduce (t : SymbolTable) (scope : ScopeId) (name : String) {entity : Entity}
    (span : Span) (h : entity.IsIntroduced) :
    Adds (Symbol.IsAdded s) t (t.introduce scope name entity span).2 := by
  have hinsert : Adds (Symbol.IsAdded s) t (t.insertEntity scope name entity span).2 :=
    insertEntity t scope name entity span h.kind_ne_function h.origin?_eq_none
      fun value hvalue => absurd hvalue (h.ne_enumerator value)
  unfold SymbolTable.introduce
  cases ownScopeKind? entity.kind with
  | none => exact hinsert
  | some kind =>
    refine hinsert.trans Symbol.IsAdded.grows (pushOwnScope Symbol.IsAdded.grows ?_ kind scope)
    exact congrArg Symbol.scope (t.symbol_insertEntity scope name entity span)

theorem insertParameters (header : ScopeId) (ps : ParameterList) : ∀ (index : Nat)
    (t : SymbolTable), Adds (Symbol.IsAdded s) t (Session.insertParameters header index ps t) := by
  induction ps with
  | nil => exact fun _ t => refl t
  | cons p rest ih =>
    intro index t
    rw [Session.insertParameters]
    split
    · exact ih _ _
    · exact (insertEntity t header p.name _ p.span (by simp [Entity.kind]) rfl
        fun _ h => by cases h).trans Symbol.IsAdded.grows (ih _ _)

theorem foldl_expose (scope : ScopeId) {aliases : List (String × SymbolId)} :
    ∀ {t : SymbolTable}, (∀ b ∈ aliases, t.HasSymbol b.2 ∧ (t.symbol b.2).kind ≠ .classType) →
      Adds (Symbol.IsAdded s) t
        (aliases.foldl (fun t (name, target) => t.expose scope name target) t) := by
  induction aliases with
  | nil => exact fun _ => refl _
  | cons b rest ih =>
    intro t h
    obtain ⟨hhas, hkind⟩ := h b List.mem_cons_self
    refine (expose t scope b.1 hhas hkind).trans Symbol.IsAdded.grows (ih fun c hc => ?_)
    exact h c (List.mem_cons_of_mem _ hc)

theorem settleHeader (t : SymbolTable) (header : ScopeId) :
    Adds (Symbol.IsAdded s) t (t.settleHeader header) :=
  modifyScope (fun _ => .settle _) fun _ hb => .inl hb

end SymbolTable.Adds

/-- Every change adds what it may add only. -/
theorem Session.Change.adds {s u : Session} {role : Role} (hs : s.Closed) (h : s.Change role u) :
    SymbolTable.Adds (Symbol.IsAdded s) s.table u.table := by
  cases h with
  | enter scope has => exact .refl _
  | form op isOn known formed => exact .refl _
  | edit id f has edit => exact .modifySymbol fun _ => edit.grows
  | introduce scope name entity span has closed unnamed introduced =>
    exact .introduce _ scope name span introduced
  | overload scope name type signature keywords span table has known encoding eq =>
    obtain ⟨_, _, _, rfl⟩ := SymbolTable.declareOverload_eq eq
    exact .pushSymbol _ (.overload type keywords signature rfl known encoding rfl)
      fun h => by cases h
  | register template data keyword args shown span has entity templated known unknown =>
    have templated : (s.table.symbol template).kind = .template := congrArg Entity.kind entity
    refine (SymbolTable.Adds.pushSymbol _ (.registered rfl template args rfl has templated known
      rfl) fun _ => rfl).trans Symbol.IsAdded.grows
        (.pushOwnScope Symbol.IsAdded.grows ?_ .classBody _)
    exact congrArg Symbol.scope ((s.table.symbol_pushSymbol _ _ _).trans (if_pos rfl))
  | openHeader parameters valid known =>
    exact (SymbolTable.Adds.pushScope _ rfl).trans Symbol.IsAdded.grows
      (.insertParameters _ _ _ _)
  | template header enclosing name templated span table isOpen around unnamed eq =>
    obtain ⟨_, _, rfl⟩ := SymbolTable.introduceTemplate_eq eq
    have hinsert := SymbolTable.Adds.insertEntity (s := s) s.table enclosing name
      (.template ⟨(s.table.scope header).pending.getD [], templated, none, false⟩) span
      (by simp [Entity.kind]) rfl fun _ h => by cases h
    refine (hinsert.trans Symbol.IsAdded.grows (.modifySymbol fun _ => ?_)).trans
      Symbol.IsAdded.grows ((SymbolTable.Adds.modifyScope (fun _ => ?_) fun _ hb => .inl hb).trans
        Symbol.IsAdded.grows (.settleHeader _ _))
    · -- The new symbol has no scope yet.
      exact .of_scope (congrArg Symbol.scope (s.table.symbol_insertEntity _ _ _ _)) header
    · exact SymbolTable.grows_owner_of_insert isOpen
  | adopt header own existing isOpen scope =>
    refine (SymbolTable.Adds.foldl_expose own fun b hb => ?_).trans Symbol.IsAdded.grows
      (.settleHeader _ _)
    obtain ⟨hdeclared, hkind⟩ := SymbolTable.of_mem_parameterAliases hb
    exact ⟨hs.linked.declared_has own b.2 hdeclared, by simp [hkind]⟩
  | enumerate id data site name value span entity own around free underlying typed =>
    have hid : s.table.HasSymbol id := SymbolTable.has_of_entity entity (by simp)
    have hinsert := SymbolTable.Adds.insertEntity (s := s) s.table site.own name
      (.enumerator value) span (by simp [Entity.kind]) rfl fun value' hvalue => by
        cases hvalue
        exact ⟨id, data, hid, entity, own, underlying ▸ typed⟩
    unfold EnumSite.insert
    cases site.around with
    | none => exact hinsert
    | some scope =>
      refine hinsert.trans Symbol.IsAdded.grows (.expose _ scope name ?_ ?_)
      · exact (s.table.hasSymbol_pushSymbol _ _ _).mpr (.inr rfl)
      · have hsymbol := s.table.symbol_insertEntity site.own name (.enumerator value) span
        exact fun h => by cases (congrArg Symbol.kind hsymbol).symm.trans h

/-! ### Symbols that stay as they are -/

/-- What a change adds is no class with bases, no enum with enumerators and no object that is
not typed as objects are, and a plain change adds no instance. -/
def Entity.IsNewFor (g : TypeGraph) (role : Role) : Entity → Prop
  | .classType data => data.bases = [] ∧ (role = .plain → data.origin = none)
  | .enumeration data => data.enumerators = []
  | .object data => IsTyped g (.object data)
  | _ => True

theorem Entity.IsNewFor.origin?_eq_none {g : TypeGraph} {e : Entity} (h : e.IsNewFor g .plain) :
    e.origin? = none := by
  cases e with
  | classType data => exact h.2 rfl
  | _ => rfl

theorem Entity.IsIntroduced.isNewFor {g : TypeGraph} {role : Role} {e : Entity}
    (h : e.IsIntroduced) (htyped : e.IsTyped g) : e.IsNewFor g role := by
  cases e with
  | classType data => exact ⟨h.1, fun _ => h.2.2⟩
  | enumeration data => exact h
  | object data => exact htyped
  | _ => trivial

namespace SymbolTable.Extends

variable {g : TypeGraph} {role : Role} {t u : SymbolTable}

theorem introduce (t : SymbolTable) (scope : ScopeId) (name : String) {entity : Entity}
    (hnew : entity.IsNewFor g role) (span : Span) :
    Extends (Entity.IsNewFor g role) t (t.introduce scope name entity span).2 := by
  have hinsert : Extends (Entity.IsNewFor g role) t (t.insertEntity scope name entity span).2 :=
    (refl t).pushSymbol name hnew
  unfold SymbolTable.introduce
  cases ownScopeKind? entity.kind with
  | none => exact hinsert
  | some kind => exact hinsert.pushOwnScope t.not_hasSymbol_nextSymbol kind scope

theorem insertParameters (header : ScopeId) (ps : ParameterList) : ∀ (index : Nat)
    {u : SymbolTable}, Extends (Entity.IsNewFor g role) t u →
      Extends (Entity.IsNewFor g role) t (Session.insertParameters header index ps u) := by
  induction ps with
  | nil => exact fun _ _ h => h
  | cons p rest ih =>
    intro index u h
    rw [Session.insertParameters]
    split
    · exact ih _ h
    · exact ih _ (h.pushSymbol p.name trivial)

theorem foldl_expose {new : Entity → Prop} (scope : ScopeId) (aliases : List (String × SymbolId)) :
    ∀ {u : SymbolTable}, Extends new t u → Extends new t
      (aliases.foldl (fun t (name, target) => t.expose scope name target) u) := by
  induction aliases with
  | nil => exact fun h => h
  | cons b rest ih => exact fun h => ih (h.modifyScope scope _)

end SymbolTable.Extends

/-- A change edits one symbol, or leaves all that there were as they are. -/
theorem Session.Change.extends_or_edit {s u : Session} {role : Role} (h : s.Change role u) :
    SymbolTable.Extends (Entity.IsNewFor s.types role) s.table u.table ∨ ∃ id f,
      Symbol.Edit s id (s.table.symbol id) role (f (s.table.symbol id)) ∧
        u.table = s.table.modifySymbol id f := by
  have hrefl : SymbolTable.Extends (Entity.IsNewFor s.types role) s.table s.table := .refl _
  have hnext := s.table.not_hasSymbol_nextSymbol
  cases h with
  | enter | form => exact .inl hrefl
  | edit id f has edit => exact .inr ⟨id, f, edit, rfl⟩
  | introduce scope name entity span has closed unnamed introduced known typed =>
    exact .inl (.introduce _ scope name (introduced.isNewFor typed) span)
  | overload scope name type signature keywords span table has known encoding eq =>
    obtain ⟨_, _, _, rfl⟩ := SymbolTable.declareOverload_eq eq
    exact .inl (hrefl.pushSymbol _ trivial)
  | register template data keyword args shown span =>
    have hnew : Entity.IsNewFor s.types .making
        (.classType ⟨keyword, [], [], some ⟨template, args⟩⟩) := ⟨rfl, nofun⟩
    exact .inl ((hrefl.pushSymbol _ hnew).pushOwnScope hnext .classBody _)
  | openHeader parameters valid known => exact .inl (.insertParameters _ _ _ (hrefl.pushScope _))
  | template header enclosing name templated span table isOpen around unnamed eq =>
    obtain ⟨_, _, rfl⟩ := SymbolTable.introduceTemplate_eq eq
    have hinsert : SymbolTable.Extends (Entity.IsNewFor s.types .plain) s.table
        (s.table.insertEntity enclosing name
          (.template ⟨(s.table.scope header).pending.getD [], templated, none, false⟩) span).2 :=
      hrefl.pushSymbol name trivial
    refine .inl (((hinsert.modifySymbol hnext ?_).modifyScope _ _).modifyScope _ _)
    exact fun _ => rfl
  | adopt header own existing isOpen scope =>
    exact .inl ((SymbolTable.Extends.foldl_expose own _ hrefl).modifyScope _ _)
  | enumerate id data site name value span entity own around free =>
    have hinsert : SymbolTable.Extends (Entity.IsNewFor s.types .plain) s.table
        (s.table.insertEntity site.own name (.enumerator value) span).2 :=
      hrefl.pushSymbol name trivial
    unfold EnumSite.insert
    cases site.around with
    | none => exact .inl hinsert
    | some scope => exact .inl (hinsert.modifyScope _ _)

end TemplateAnalysis
