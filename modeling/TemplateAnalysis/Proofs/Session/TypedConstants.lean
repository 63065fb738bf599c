import TemplateAnalysis.Proofs.Session.Completion
import TemplateAnalysis.Proofs.Session.Memo
import TemplateAnalysis.Proofs.Session.OwnScopes

/-!
# Recorded constants have their type

A constant is recorded as the value of an object or of an enumerator, or in the arguments
of an instance. What it is recorded for is declared with a type, and where that is a
fundamental one, the constant was converted to it before.
-/

namespace TemplateAnalysis

open Session

theorem ParameterList.Receive.hasType {ps : ParameterList} {args : Arguments}
    (h : ps.Receive args) {index : Nat} {p : TemplateParameter} {x : TemplateArgument}
    (hp : ps[index]? = some p) (hx : args[index]? = some x) : x.HasType p.valueType := by
  obtain ⟨hindex, rfl⟩ := List.getElem?_eq_some_iff.mp hp
  obtain ⟨hindex', rfl⟩ := List.getElem?_eq_some_iff.mp hx
  exact (List.forall₂_iff_get.mp h).2 index hindex hindex'

/-! ### Objects -/

theorem Symbol.Edit.isTyped {s : Session} {id : SymbolId} {x y : Symbol} {role : Session.Role}
    (h : Symbol.Edit s id x role y) (hx : x.entity.IsTyped s.types) :
    y.entity.IsTyped s.types := by
  cases h with
  | remember | define => exact hx
  | record data entity value free typed =>
    rw [entity] at hx
    cases value with
    | none => exact hx
    | some given => exact ⟨hx.1, typed⟩
  | _ => trivial

namespace Session

variable {s u : Session}

theorem Closed.isTyped (hs : s.Closed) {types : TypeGraph} (hp : s.types.Prefix types)
    {id : SymbolId} (h : (s.table.symbol id).entity.IsTyped s.types) :
    (s.table.symbol id).entity.IsTyped types := by
  cases hentity : (s.table.symbol id).entity with
  | object data =>
    have hknown := (hs.symbol id (SymbolTable.has_of_entity hentity (by simp))).known
    rw [hentity] at h hknown
    have htype : s.types.Has data.type := hknown (.type data.type) (by simp [Entity.handles])
    rwa [Entity.IsTyped, hp.isFunction_eq htype, hp.primitive?_eq htype]
  | _ => trivial

def HasTypedObjects (s : Session) : Prop :=
  ∀ id, (s.table.symbol id).entity.IsTyped s.types

theorem Change.hasTypedObjects {role : Role} (hs : s.Closed) (h : s.Change role u)
    (htyped : s.HasTypedObjects) : u.HasTypedObjects := by
  have hp := (h.grows hs).types
  have hone : u.types = s.types ∨ u.table = s.table := by
    cases h with
    | form => exact .inr rfl
    | _ => exact .inl rfl
  intro id
  rcases hone with htypes | htable
  · rw [htypes]
    rcases h.extends_or_edit with hextends | ⟨other, f, hedit, htable⟩
    · by_cases hold : s.table.HasSymbol id
      · rw [hextends.old id hold]
        exact htyped id
      · cases hentity : (u.table.symbol id).entity with
        | object data =>
          have hid := SymbolTable.has_of_entity hentity (by simp)
          have hnew := (hextends.added id hid).resolve_left hold
          rwa [hentity] at hnew
        | _ => trivial
    · rw [htable, SymbolTable.symbol_modifySymbol]
      split
      · rename_i hsame
        obtain ⟨rfl, _⟩ := hsame
        exact hedit.isTyped (htyped id)
      · exact htyped id
  · rw [htable]
    exact hs.isTyped hp (htyped id)

theorem Run.hasTypedObjects {config : Config} (h : (start config).Run s) : s.HasTypedObjects := by
  refine h.keeps HasTypedObjects (.start config)
    (fun _ _ hv hchange htyped => hchange.hasTypedObjects hv htyped)
    (fun _ _ hv _ hgrows htyped id => hv.isTyped hgrows.types (htyped id)) fun id => ?_
  rw [SymbolTable.symbol_eq_default (Nat.not_lt_zero _)]
  trivial

/-! ### Enumerators -/

theorem TakesEnumerator.grows (hs : s.Closed) (hgrows : s.Grows u) {scope : ScopeId}
    {value : Constant} (h : s.TakesEnumerator scope value) : u.TakesEnumerator scope value := by
  obtain ⟨id, data, hid, hdata, hscope, hvalue⟩ := h
  have hsymbol := hgrows.table.symbol id hid
  obtain ⟨data', hdata', _, hsame⟩ := hsymbol.enumeration_entity hdata
  refine ⟨id, data', hgrows.table.hasSymbol id hid, hdata', hsymbol.scope scope hscope, ?_⟩
  rw [hsame, hs.underlying_eq hgrows hid hdata]
  exact hvalue

def HasTypedEnumerators (s : Session) : Prop :=
  ∀ id value, (s.table.symbol id).entity = .enumerator value →
    s.TakesEnumerator (s.table.symbol id).enclosing value

theorem Change.hasTypedEnumerators {role : Role} (hs : s.Closed) (h : s.Change role u)
    (htyped : s.HasTypedEnumerators) : u.HasTypedEnumerators := by
  have hgrows := h.grows hs
  intro id value hvalue
  refine TakesEnumerator.grows hs hgrows ?_
  rcases (h.adds hs).symbol id (SymbolTable.has_of_entity hvalue (by simp)) with hold | hnew
  · have hsymbol := hgrows.table.symbol id hold
    rw [hsymbol.enclosing]
    exact htyped id value (hsymbol.enumerator_iff.mp hvalue)
  · cases hnew with
    | declared kind plain mangled valued => exact valued value hvalue
    | overload type keywords signature entity => cases hvalue.symm.trans entity
    | registered kind =>
      rw [Symbol.kind, hvalue] at kind
      cases kind

theorem Run.hasTypedEnumerators {config : Config} (h : (start config).Run s) :
    s.HasTypedEnumerators :=
  h.keeps HasTypedEnumerators (.start config)
    (fun _ _ hv hchange htyped => hchange.hasTypedEnumerators hv htyped)
    (fun _ _ hv _ hgrows htyped id value hvalue => (htyped id value hvalue).grows hv hgrows)
    fun _ _ hvalue => absurd (SymbolTable.has_of_entity hvalue (by simp)) (Nat.not_lt_zero _)

/-! ### What is recorded -/

/-- A constant that a session has for something that is declared with a fundamental type. -/
inductive Records (s : Session) (c : Constant) (type : Primitive) : Prop
  /-- The value of an object, whatever the qualifiers of its type. -/
  | object (id : SymbolId) (data : ObjectData) (entity : (s.table.symbol id).entity = .object data)
    (typed : s.types.primitive? data.type = some type) (value : data.value = some c)
  /-- The value of an enumerator that an enum lists, or that is declared in its scope. -/
  | enumerator (id i : SymbolId) (data : EnumData)
    (entity : (s.table.symbol id).entity = .enumeration data)
    (typed : data.underlying.bind s.types.primitive? = some type)
    (own : i ∈ data.enumerators ∨ (s.table.symbol id).scope = some (s.table.symbol i).enclosing)
    (value : (s.table.symbol i).entity = .enumerator c)
  /-- An argument of an instance, or an element of one. -/
  | argument (i : SymbolId) (origin : InstanceOrigin)
    (instantiated : (s.table.symbol i).origin? = some origin) (data : TemplateData)
    (entity : (s.table.symbol origin.template).entity = .template data) (index : Nat)
    (parameter : TemplateParameter) (declared : data.parameters[index]? = some parameter)
    (typed : parameter.valueType = some type) (bound : TemplateArgument)
    (given : origin.arguments[index]? = some bound)
    (value : bound = .value c ∨ ∃ kind elements, bound = .pack kind elements ∧ .value c ∈ elements)

/-- In every session that a run leads to, a constant that is recorded for something of a
fundamental type is one of its values: the conversion to the type leaves it as it is, it is
a `bool`, a number, or an unsigned or signed integer as the type is, and in the last two
cases in the range of the type. -/
theorem convert_of_records {config : Config} (hs : (start config).Run s) {c : Constant}
    {type : Primitive} (h : s.Records c type) : c.convert type = .ok c ∧ c.Inhabits type := by
  suffices hconvert : c.convert type = .ok c from ⟨hconvert, Constant.inhabits_of_convert hconvert⟩
  cases h with
  | object id data entity typed value =>
    have hvalue := hs.hasTypedObjects id
    rw [entity] at hvalue
    exact hvalue.2 c value type typed
  | enumerator id i data entity typed own value =>
    have hown : (s.table.symbol id).scope = some (s.table.symbol i).enclosing :=
      own.elim (fun hi => (hs.listsEnumerators id data entity i hi).2.2) fun h => h
    obtain ⟨other, data', hhas, hdata', hscope, hvalue⟩ := hs.hasTypedEnumerators i c value
    -- The scope of the enumerator belongs to one enum only.
    have hid := SymbolTable.has_of_entity entity (by simp)
    have hsame : other = id :=
      Option.some.inj ((hs.owned other hhas _ hscope).symm.trans (hs.owned id hid _ hown))
    subst hsame
    rw [entity] at hdata'
    cases hdata'
    exact hvalue type typed
  | argument i origin instantiated data entity index parameter declared typed bound given value =>
    obtain ⟨data', hdata', _, hreceive⟩ := (hs.hasMemo i origin instantiated).template
    rw [entity] at hdata'
    cases hdata'
    have hbound := hreceive.hasType declared given
    rcases value with rfl | ⟨kind, elements, rfl, hc⟩
    · exact hbound type typed
    · exact hbound c hc type typed

/-- The `int` literal `5` is recorded for a `const unsigned` object as an unsigned integer,
and one that is too large is not recorded. -/
theorem convert_of_records_limit :
    let limit := Operation.declareObject "limit"
      ⟨(KeywordSet.singleton .const).union (.singleton .unsigned), none⟩ []
      (some (.literal (.int 5) .synthesized)) .synthesized
    let large := Operation.declareObject "large"
      ⟨(KeywordSet.singleton .const).union (.singleton .unsigned), none⟩ []
      (some (.literal (.int 4294967296) .synthesized)) .synthesized
    let s := large.after (limit.after (start .standard))
    s.table.valueOf ⟨1⟩ = .unknown ∧ s.Records (.uint 5) .unsignedInt ∧
      (Constant.uint 5).convert .unsignedInt = .ok (.uint 5) ∧
      (Constant.uint 5).Inhabits .unsignedInt := by
  intro limit large s
  have hrun : (start .standard).Run s :=
    (Run.refl.step limit .of_handles_nil).step large .of_handles_nil
  have hlimit : ∃ data, (s.table.symbol ⟨0⟩).entity = .object data ∧
      s.types.primitive? data.type = some .unsignedInt ∧ data.value = some (.uint 5) :=
    ⟨_, rfl, rfl, rfl⟩
  obtain ⟨data, hdata, htype, hvalue⟩ := hlimit
  have hrecords : s.Records (.uint 5) .unsignedInt := .object ⟨0⟩ data hdata htype hvalue
  exact ⟨by decide +kernel, hrecords, convert_of_records hrun hrecords⟩

end Session

end TemplateAnalysis
