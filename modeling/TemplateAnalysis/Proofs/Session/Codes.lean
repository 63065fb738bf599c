import TemplateAnalysis.Proofs.Encoding.Arguments
import TemplateAnalysis.Proofs.Session.Additions

/-!
# The internal names of a session are codes

As long as names are identifiers, the internal name of every symbol is the text of
tokens whose brackets are balanced. For everything but functions these can be split
off what stands behind them: they are one sized name, a key, or a nested name.
-/

namespace TemplateAnalysis

open Token

structure Symbol.HasCode (x : Symbol) (ts : List Token) : Prop where
  spelled : x.mangled.toList = spell ts
  isCode : IsCode ts
  isUnit : x.kind ≠ .function → IsUnit ts
  template : x.kind = .template → ∃ n, ts = [Token.name n]

theorem Symbol.HasCode.grows {x y : Symbol} {ts : List Token} (hx : x.HasCode ts)
    (h : x.Grows y) : y.HasCode ts where
  spelled := h.mangled ▸ hx.spelled
  isCode := hx.isCode
  isUnit hkind := hx.isUnit (h.kind_eq ▸ hkind)
  template hkind := hx.template (h.kind_eq ▸ hkind)

theorem spell_name (n : String) : (sourceName n).toList = spell [name n] := by
  simp [spelling]

namespace SymbolTable

variable {t : SymbolTable} {codes : SymbolId → List Token}

def Coded (t : SymbolTable) (codes : SymbolId → List Token) : Prop :=
  ∀ id, t.HasSymbol id → (t.symbol id).HasCode (codes id)

def nestedCode (t : SymbolTable) (codes : SymbolId → List Token) (id : SymbolId) : List Token :=
  match t.ownerChain (t.symbol id).enclosing with
  | [] => codes id
  | owners => letter 'N' :: (owners.flatMap codes ++ codes id ++ [letter 'E'])

namespace Coded

theorem toList_nestedName (h : t.Coded codes) (ht : t.Linked) {id : SymbolId}
    (hid : t.HasSymbol id) : (t.nestedName id).toList = spell (t.nestedCode codes id) := by
  have howners := fun o (ho : o ∈ t.ownerChain (t.symbol id).enclosing) =>
    (h o (mem_ownerChain_has ht ho)).spelled
  rw [nestedName, nestedCode]
  generalize t.ownerChain (t.symbol id).enclosing = owners at howners
  cases owners with
  | nil => exact (h id hid).spelled
  | cons o owners =>
    have hjoin : ∀ os : List SymbolId, (∀ o ∈ os, (t.symbol o).mangled.toList = spell (codes o)) →
        (String.join (os.map fun o => (t.symbol o).mangled)).toList = spell (os.flatMap codes) := by
      intro os hos
      induction os with
      | nil => rfl
      | cons o os ih =>
        rw [List.map_cons, String.join_cons, String.toList_append, hos o List.mem_cons_self,
          ih fun x hx => hos x (List.mem_cons_of_mem _ hx), List.flatMap_cons, spell_append]
    simp only [String.toList_append, hjoin _ howners, (h id hid).spelled]
    simp [spelling]

theorem isCode_nestedCode (h : t.Coded codes) (ht : t.Linked) {id : SymbolId}
    (hid : t.HasSymbol id) : IsCode (t.nestedCode codes id) := by
  have howners := fun o (ho : o ∈ t.ownerChain (t.symbol id).enclosing) =>
    (h o (mem_ownerChain_has ht ho)).isCode
  rw [nestedCode]
  split
  · exact (h id hid).isCode
  · have hpath := (IsCode.flatMap howners).append (h id hid).isCode
    exact .bracket ⟨rfl, by decide, by decide⟩ rfl hpath

/-- The nested name of everything but a function can be split off. -/
theorem isUnit_nestedCode (h : t.Coded codes) (ht : t.Linked) {id : SymbolId}
    (hid : t.HasSymbol id) (hkind : (t.symbol id).kind ≠ .function) :
    IsUnit (t.nestedCode codes id) := by
  have howners := fun o (ho : o ∈ t.ownerChain (t.symbol id).enclosing) =>
    (h o (mem_ownerChain_has ht ho)).isCode
  rw [nestedCode]
  split
  · exact (h id hid).isUnit hkind
  · exact .nested ((IsCode.flatMap howners).append (h id hid).isCode).balanced

end Coded

end SymbolTable

namespace Session

variable {s u : Session} {codes : SymbolId → List Token}

def typeCode (s : Session) (codes : SymbolId → List Token) (id : TypeId) : List Token :=
  (s.types.tree id).tokens (s.table.nestedCode codes)

theorem toList_typeEncoding (hs : s.Closed) (h : s.table.Coded codes) {id : TypeId}
    (hid : s.types.Has id) :
    (s.table.typeEncoding s.types id).toList = spell (s.typeCode codes id) :=
  TypeTree.toList_encoding _ fun _ hy => h.toList_nestedName hs.linked (hs.symbols_tree hid _ hy)

theorem isCode_typeCode (hs : s.Closed) (h : s.table.Coded codes) {id : TypeId}
    (hid : s.types.Has id) : IsCode (s.typeCode codes id) :=
  TypeTree.isCode_tokens _ fun _ hy => h.isCode_nestedCode hs.linked (hs.symbols_tree hid _ hy)

/-- Everything that is declared in a session has an identifier as its name. -/
def HasIdentifiers (s : Session) : Prop :=
  ∀ id, s.table.HasSymbol id → (s.table.symbol id).origin? = none →
    IsIdentifier (s.table.symbol id).name

theorem HasIdentifiers.of_grows (hu : u.HasIdentifiers) (h : s.Grows u) : s.HasIdentifiers := by
  intro id hid horigin
  have hgrows := h.table.symbol id hid
  exact hgrows.name ▸ hu id (h.table.hasSymbol id hid) (hgrows.origin?_eq.trans horigin)

def IsCoded (s : Session) : Prop := ∃ codes, s.table.Coded codes

theorem isCoded_iff :
    s.IsCoded ↔ ∀ id, s.table.HasSymbol id → ∃ ts, (s.table.symbol id).HasCode ts := by
  constructor
  · rintro ⟨codes, h⟩ id hid
    exact ⟨codes id, h id hid⟩
  · intro h
    have hexists : ∀ id, ∃ ts, s.table.HasSymbol id → (s.table.symbol id).HasCode ts := by
      intro id
      by_cases hid : s.table.HasSymbol id
      · exact (h id hid).imp fun _ hts _ => hts
      · exact ⟨[], fun hid' => absurd hid' hid⟩
    choose codes hcodes using hexists
    exact ⟨codes, hcodes⟩

/-! ### New symbols have codes -/

theorem hasCode_declared {x : Symbol} (hmangled : x.mangled = sourceName x.name)
    (hname : IsIdentifier x.name) : x.HasCode [name x.name] where
  spelled := hmangled ▸ spell_name x.name
  isCode := .cons hname rfl rfl .nil
  isUnit _ := .single x.name
  template _ := ⟨x.name, rfl⟩

/-- The name of a function carries the tokens of its signature. -/
theorem exists_hasCode_overload (hs : s.Closed) (h : s.table.Coded codes) {x : Symbol}
    (hkind : x.kind = .function) {type : TypeId} {signature : String} (htype : s.types.Has type)
    (hsignature : s.table.signature? s.types type = some signature)
    (hmangled : x.mangled = sourceName x.name ++ signature) (hname : IsIdentifier x.name) :
    ∃ ts, x.HasCode ts := by
  have hknown := hs.symbols_tree htype
  obtain ⟨result, parameters, variadic, q, htree, hspelled⟩ := TypeTree.signature?_eq_some
    hsignature fun y hy => h.toList_nestedName hs.linked (hknown y hy)
  have hparameters : IsCode (TypeTree.tokensOfList (s.table.nestedCode codes) parameters) := by
    refine TypeTree.isCode_tokensOfList parameters fun y hy =>
      h.isCode_nestedCode hs.linked (hknown y ?_)
    rw [htree]
    exact List.mem_append_right _ hy
  refine ⟨name x.name :: TypeTree.signatureTokens (s.table.nestedCode codes) parameters variadic q,
    ?_, ?_, fun hne => absurd hkind hne, fun htemplate => ?_⟩
  · rw [hmangled, String.toList_append, hspelled, spell_name, ← spell_append, List.singleton_append]
  · exact .cons hname rfl rfl ((TypeTree.isCode_qualifiers q).append
      (TypeTree.isCode_parameterListTokens _ hparameters variadic))
  · rw [hkind] at htemplate
    cases htemplate

def keyCode (s : Session) (codes : SymbolId → List Token) (template : String) (args : Arguments) :
    List Token :=
  name template :: letter 'I' ::
    (TemplateArgument.tokensOfList (s.typeCode codes) args ++ [letter 'E'])

theorem toList_instanceKey (hs : s.Closed) (h : s.table.Coded codes) {template mangled : String}
    (hmangled : mangled.toList = spell [name template]) {args : Arguments}
    (hargs : AllKnown s.Known (handlesOfArguments args)) :
    (instanceKey (s.table.typeEncoding s.types) mangled args).toList =
      spell (s.keyCode codes template args) := by
  have hencodings := TemplateArgument.toList_encodings args fun id hid =>
    s.toList_typeEncoding hs h (hargs (.type id) hid)
  rw [instanceKey, String.toList_append, String.toList_append, String.toList_append, hmangled,
    hencodings, keyCode]
  simp [spelling]

theorem hasCode_registered (hs : s.Closed) (h : s.table.Coded codes) {x : Symbol}
    (hkind : x.kind = .classType) {template : SymbolId} (htemplate : s.table.HasSymbol template)
    (htemplated : (s.table.symbol template).kind = .template) {args : Arguments}
    (hargs : AllKnown s.Known (handlesOfArguments args))
    (hmangled : x.mangled = instanceKey (s.table.typeEncoding s.types)
      (s.table.symbol template).mangled args) : ∃ ts, x.HasCode ts := by
  obtain ⟨n, hn⟩ := (h template htemplate).template htemplated
  have hspelled := (h template htemplate).spelled
  have hsound := (h template htemplate).isCode.sound (name n) (by simp [hn])
  have hargs' : IsCode (TemplateArgument.tokensOfList (s.typeCode codes) args) :=
    TemplateArgument.isCode_tokensOfList args fun id hid =>
      s.isCode_typeCode hs h (hargs (.type id) hid)
  rw [hn] at hspelled
  refine ⟨s.keyCode codes n args, ?_, ?_, fun _ => .key n hargs'.balanced, fun hne => ?_⟩
  · rw [hmangled]
    exact toList_instanceKey hs h hspelled hargs
  · exact .cons hsound rfl rfl (.bracket ⟨rfl, by decide, by decide⟩ rfl hargs')
  · rw [hkind] at hne
    cases hne

/-- As long as names are identifiers, internal names are the texts of tokens. -/
theorem Change.isCoded {role : Role} (hs : s.Closed) (h : s.Change role u)
    (hnames : u.HasIdentifiers) (hcoded : s.IsCoded) : u.IsCoded := by
  have hadds := h.adds hs
  obtain ⟨codes, hcodes⟩ := hcoded
  refine isCoded_iff.mpr fun id hid => ?_
  rcases hadds.symbol id hid with hold | hnew
  · exact ⟨codes id, (hcodes id hold).grows (hadds.grows.symbol id hold)⟩
  · cases hnew with
    | declared kind plain mangled =>
      exact ⟨_, hasCode_declared mangled (hnames id hid plain)⟩
    | overload type keywords signature entity known encoding mangled =>
      have hplain : (u.table.symbol id).origin? = none := congrArg Entity.origin? entity
      exact exists_hasCode_overload hs hcodes (congrArg Entity.kind entity) known encoding mangled
        (hnames id hid hplain)
    | registered kind template args origin has templated known mangled =>
      exact hasCode_registered hs hcodes kind has templated known mangled

theorem isCoded_start (config : Config) : (start config).IsCoded :=
  ⟨fun _ => [], fun _ h => absurd h (Nat.not_lt_zero _)⟩

end Session

end TemplateAnalysis
