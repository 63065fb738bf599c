import TemplateAnalysis.Proofs.Constant.Ranges
import TemplateAnalysis.Proofs.Session.Enumerators

/-!
# The values of enumerators

The values of enumerators count: one that is not given is the number after the one before, as a
value of the fundamental type of the enum. A type that does not have the number refuses it; only
`bool` takes its truth value, so that after a true enumerator comes another one.

The number after a value is asked for as soon as the value is there, whether or not another
enumerator needs it. So an enum whose values all fit is completed, but for one case: a value
that is the last of the words that constants are made of.
-/

namespace TemplateAnalysis

/-! ### The number after a value -/

namespace Constant

/-- The type of all integers that have a constant of the same sort. Truth values are counted
on as signed words. -/
def wordType : Constant → Primitive
  | uint _ => .unsignedLongLong
  | _ => .longLong

variable {c v w : Constant} {n : Int} {type : Primitive}

theorem inhabits_longLong : v.Inhabits .longLong ↔ ∃ w, v = int w := by
  constructor
  · intro h
    cases v with
    | int w => exact ⟨w, rfl⟩
    | uint w | float w => cases h.1
    | bool b => cases h
  · rintro ⟨w, rfl⟩
    exact ⟨rfl, inRange_longLong.mpr ⟨w, rfl⟩⟩

theorem inhabits_unsignedLongLong : v.Inhabits .unsignedLongLong ↔ ∃ w, v = uint w := by
  constructor
  · intro h
    cases v with
    | uint w => exact ⟨w, rfl⟩
    | int w | float w => cases h.1
    | bool b => cases h
  · rintro ⟨w, rfl⟩
    exact ⟨rfl, by decide, inRange_unsignedLongLong.mpr ⟨w, rfl⟩⟩

/-- The words of a sort are the constants of the integers in their range. -/
theorem exists_inhabits_wordType :
    (∃ w : Constant, w.integer? = some n ∧ w.Inhabits c.wordType) ↔ InRange c.wordType n := by
  cases c with
  | uint v =>
    simp only [wordType, inhabits_unsignedLongLong, inRange_unsignedLongLong]
    constructor
    · rintro ⟨_, hn, x, rfl⟩
      exact ⟨x, Option.some.inj hn⟩
    · rintro ⟨x, rfl⟩
      exact ⟨uint x, rfl, x, rfl⟩
  | int v | bool b | float x =>
    simp only [wordType, inhabits_longLong, inRange_longLong]
    constructor
    · rintro ⟨_, hn, x, rfl⟩
      exact ⟨x, Option.some.inj hn⟩
    · rintro ⟨x, rfl⟩
      exact ⟨int x, rfl, x, rfl⟩

/-- The value after another one is the next integer, of the same sort of words. -/
theorem successor_eq_ok : c.successor = .ok w ↔
    ∃ n, c.integer? = some n ∧ w.integer? = some (n + 1) ∧ w.Inhabits c.wordType := by
  -- An unsigned word has to stay closed: its number is compared with the size of words.
  obtain ⟨word, hword⟩ : ∃ word, word = unsignedWord? := ⟨_, rfl⟩
  have hunsigned : ∀ n x, word n = some x ↔ (x.toNat : Int) = n := fun _ _ =>
    hword ▸ unsignedWord?_eq_some
  rw [successor.eq_def, ← hword]
  cases c with
  | int v =>
    simp only [wordType, inhabits_longLong]
    constructor
    · intro h
      cases hx : signedWord? (v.toInt + 1) with
      | none =>
        rw [hx] at h
        cases h
      | some x =>
        rw [hx] at h
        cases h
        exact ⟨_, rfl, congrArg some (signedWord?_eq_some.mp hx), x, rfl⟩
    · rintro ⟨n, hn, hw, x, rfl⟩
      cases hn
      rw [signedWord?_eq_some.mpr (Option.some.inj hw)]
  | uint v =>
    simp only [wordType, inhabits_unsignedLongLong]
    constructor
    · intro h
      cases hx : word (v.toNat + 1) with
      | none =>
        rw [hx] at h
        cases h
      | some x =>
        rw [hx] at h
        cases h
        exact ⟨_, rfl, congrArg some ((hunsigned _ x).mp hx), x, rfl⟩
    · rintro ⟨n, hn, hw, x, rfl⟩
      cases hn
      rw [(hunsigned _ x).mpr (Option.some.inj hw)]
  | bool b =>
    simp only [wordType, inhabits_longLong]
    have hnext : (b.toInt64 + 1).toInt = b.toNat + 1 := by cases b <;> rfl
    constructor
    · intro h
      cases h
      exact ⟨_, rfl, congrArg some hnext, _, rfl⟩
    · rintro ⟨n, hn, hw, x, rfl⟩
      cases hn
      rw [Int64.toInt_inj.mp ((Option.some.inj hw).trans hnext.symm)]
  | float x => simp [integer?]

def HasNext (c : Constant) : Prop := ∀ n, c.integer? = some n → InRange c.wordType (n + 1)

theorem exists_successor (hn : c.integer? = some n) :
    (∃ w, c.successor = .ok w) ↔ c.HasNext := by
  simp only [HasNext, hn, Option.some.injEq, forall_eq', ← exists_inhabits_wordType,
    successor_eq_ok, exists_eq_left']

end Constant

open Session Analysis

/-! ### Counting -/

namespace Session

/-- The number of an enumerator without a value where `n` comes next. -/
def countedNumber (underlying : Option Primitive) (n : Int) : Int :=
  if underlying = some .bool then (decide (n ≠ 0)).toNat else n

/-- Whether values are those of some enumerators where a number comes next: one that is given is
converted to the fundamental type of the enum, if there is one, and the others count. -/
inductive Counts (t : SymbolTable) (underlying : Option Primitive) :
    Int → List EnumeratorSpecifier → List Constant → Prop
  | nil (next : Int) : Counts t underlying next [] []
  | given {next n : Int} {name : String} {node : Node} {span : Span}
      {rest : List EnumeratorSpecifier} {c value : Constant} {values : List Constant}
      (evaluated : t.evaluate node = .ok c)
      (converted : underlying.elim (value = c) fun type => c.convert type = .ok value)
      (integer : value.integer? = some n) (following : Counts t underlying (n + 1) rest values) :
      Counts t underlying next (⟨name, some node, span⟩ :: rest) (value :: values)
  | counted {next : Int} {name : String} {span : Span} {rest : List EnumeratorSpecifier}
      {value : Constant} {values : List Constant}
      (integer : value.integer? = some (countedNumber underlying next))
      (following : Counts t underlying (countedNumber underlying next + 1) rest values) :
      Counts t underlying next (⟨name, none, span⟩ :: rest) (value :: values)

variable {site : EnumSite} {given value : Constant} {span : Span}

theorem EnumSite.convert_eq_ok : site.convert given span = .ok value ↔
    site.underlying.elim (value = given ∧ given.isIntegral = true) fun type =>
      given.convert type = .ok value := by
  rw [EnumSite.convert]
  cases site.underlying with
  | some type => exact mapError_eq_ok
  | none =>
    cases hintegral : given.isIntegral with
    | true => simp [eq_comm]
    | false => simp

/-- A number that comes next is what it is in every type but `bool`. -/
theorem integer?_of_convert {n m : Int} (h : site.convert given span = .ok value)
    (hn : given.integer? = some n) (hm : value.integer? = some m) :
    m = countedNumber site.underlying n := by
  rw [EnumSite.convert_eq_ok] at h
  cases hunderlying : site.underlying with
  | none =>
    rw [hunderlying] at h
    rw [h.1, hn] at hm
    cases hm
    rfl
  | some type =>
    rw [hunderlying] at h
    by_cases hbool : type = .bool
    · subst hbool
      cases h
      cases hm
      rw [Constant.isTruthy_eq hn]
      rfl
    · rw [countedNumber, if_neg fun h => hbool (Option.some.inj h)]
      rcases Constant.convert_cases h with ⟨rfl, _⟩ | ⟨_, _, x, rfl⟩ | ⟨htype, _, _⟩
      · exact absurd rfl hbool
      · cases hm
      · obtain ⟨k, hk, hword⟩ := (Constant.convert_of_isIntegral htype hbool).mp h
        rw [hn] at hk
        cases hk
        exact Option.some.inj (hm.symm.trans (Constant.ofInteger?_eq_some hword).1)

/-- The values of enumerators count. The induction goes along the enumerators, with the constant
and the number that come next. -/
theorem counts_of_values {t : SymbolTable} {enumerators : List EnumeratorSpecifier}
    {next : Constant} {n : Int} {values : List Constant} (hn : next.integer? = some n)
    (h : site.values t next enumerators = .ok values) :
    Counts t site.underlying n enumerators values := by
  induction enumerators generalizing next n values with
  | nil =>
    cases h
    exact .nil n
  | cons e rest ih =>
    obtain ⟨given, value, following, others, hgiven, hvalue, hfollowing, hothers, rfl⟩ :=
      EnumSite.values_cons_eq_ok.mp h
    obtain ⟨m, hm, hnext, -⟩ := Constant.successor_eq_ok.mp hfollowing
    obtain ⟨name, node, span⟩ := e
    cases node with
    | some node =>
      refine .given hgiven ?_ hm (ih hnext hothers)
      have hconvert := EnumSite.convert_eq_ok.mp hvalue
      cases hunderlying : site.underlying with
      | none =>
        rw [hunderlying] at hconvert
        exact hconvert.1
      | some type =>
        rw [hunderlying] at hconvert
        exact hconvert
    | none =>
      cases hgiven
      obtain rfl := integer?_of_convert hvalue hn hm
      exact .counted hm (ih hnext hothers)

variable {s u : Session} {id : SymbolId} {enumerators : List EnumeratorSpecifier}

/-- An enum that is completed has one new enumerator for each entry, in order, with values that
count. Each is found under its name in the scope of the enum and, if the enum is unscoped, as the
same symbol in the scope around it. -/
theorem enumerators_of_defineEnum {config : Config} (hs : (start config).Run s)
    (hop : (Operation.defineEnum id enumerators span).IsOn s)
    (h : exec (defineEnum id enumerators span) s = (.ok (), u)) :
    ∃ data site values, (s.table.symbol id).entity = .enumeration data ∧
      EnumSite.IsOf site id s ∧
      u.table.IsCompleteEnum id
        { data with enumerators := s.table.nextSymbols enumerators.length } ∧
      Counts s.table site.underlying 0 enumerators values ∧
      ∀ k e value, enumerators[k]? = some e → values[k]? = some value →
        site.Places u.table e.name value ⟨s.table.symbolCount + k⟩ ∧
        ∀ scope, site.own = scope ∨ site.around = some scope →
          ∀ accepted, accepted.accepts .enumerator = true →
            u.table.lookupIn scope e.name accepted = some ⟨s.table.symbolCount + k⟩ := by
  have hclosed := hs.closed
  obtain ⟨-, site, hsite, hadmits, values, hvalues, rfl⟩ := (defineEnum_eq_ok hclosed hop).mp h
  have hin := hsite.isIn hclosed
  have ⟨hid, _, data, hdata, _⟩ := hsite
  obtain ⟨hhas, hsame⟩ := EnumSite.symbol_insertAll site enumerators values hid
  refine ⟨data, site, values, hdata, hsite, ?_, counts_of_values rfl hvalues,
    fun k e value he hvalue => ?_⟩
  · exact SymbolTable.isCompleteEnum_completeEnum hhas (hsame ▸ hdata)
  · have hnew : (⟨s.table.symbolCount + k⟩ : SymbolId) ≠ id := by
      rintro rfl
      exact absurd hid (Nat.not_lt.mpr (Nat.le_add_right _ k))
    have hplaces := SymbolTable.places_completeEnum (s.table.nextSymbols enumerators.length) hnew
      (EnumSite.places_insertAll hin hadmits he hvalue)
    exact ⟨hplaces, fun scope hscope accepted => hplaces.lookupIn hscope⟩

/-- Three enumerators of an unscoped enum of `bool`, none of them given: the first is false, and
the other two are true. -/
theorem enumerators_of_defineEnum_bool :
    let types := (Operation.graph (.primitive .bool .none)).after (start .standard)
    let s := (Operation.declareEnum "Flag" false (some ⟨0⟩) .synthesized).after types
    let items : List EnumeratorSpecifier :=
      [⟨"no", none, .synthesized⟩, ⟨"yes", none, .synthesized⟩, ⟨"also", none, .synthesized⟩]
    let u := (exec (defineEnum ⟨0⟩ items .synthesized) s).2
    u.table.valueOf ⟨2⟩ = .known (.bool true) ∧ u.table.valueOf ⟨3⟩ = .known (.bool true) ∧
      ∃ data site values, (s.table.symbol ⟨0⟩).entity = .enumeration data ∧
        EnumSite.IsOf site ⟨0⟩ s ∧
        u.table.IsCompleteEnum ⟨0⟩
          { data with enumerators := s.table.nextSymbols items.length } ∧
        Counts s.table site.underlying 0 items values ∧
        ∀ k e value, items[k]? = some e → values[k]? = some value →
          site.Places u.table e.name value ⟨s.table.symbolCount + k⟩ ∧
          ∀ scope, site.own = scope ∨ site.around = some scope →
            ∀ accepted, accepted.accepts .enumerator = true →
              u.table.lookupIn scope e.name accepted = some ⟨s.table.symbolCount + k⟩ := by
  intro types s items u
  have hbool : types.types.Has ⟨0⟩ := by decide +kernel
  have hrun : (start .standard).Run s :=
    (Run.refl.step _ .of_handles_nil).step _ (.of_known (AllKnown.nil.cons (x := .type ⟨0⟩) hbool))
  have hflag : s.table.HasSymbol ⟨0⟩ := by decide +kernel
  have hop : (Operation.defineEnum ⟨0⟩ items .synthesized).IsOn s :=
    .of_symbol hflag
  have hresult : (exec (defineEnum ⟨0⟩ items .synthesized) s).1 = .ok () := by decide +kernel
  exact ⟨by decide +kernel, by decide +kernel,
    enumerators_of_defineEnum hrun hop (exec_eq_of_ok hresult)⟩

end Session

/-! ### Values that fit -/

namespace Session

/-- Whether values are those of some enumerators where a number comes next, and fit: each is the
integer that is given, or the number that comes next, as a value of the fundamental type of the
enum. Without one, a value that is given stays as it is, and the number is a word of the sort of
the value before. -/
inductive Fits (t : SymbolTable) (underlying : Option Primitive) :
    Primitive → Int → List EnumeratorSpecifier → List Constant → Prop
  | nil (word : Primitive) (next : Int) : Fits t underlying word next [] []
  | given {word : Primitive} {next n : Int} {name : String} {node : Node} {span : Span}
      {rest : List EnumeratorSpecifier} {c value : Constant} {values : List Constant}
      (evaluated : t.evaluate node = .ok c) (integer : c.integer? = some n)
      (same : value.integer? = some n)
      (fits : underlying.elim (value = c) fun type => value.Inhabits type)
      (following : Fits t underlying value.wordType (n + 1) rest values) :
      Fits t underlying word next (⟨name, some node, span⟩ :: rest) (value :: values)
  | counted {word : Primitive} {next : Int} {name : String} {span : Span}
      {rest : List EnumeratorSpecifier} {value : Constant} {values : List Constant}
      (integer : value.integer? = some next) (fits : value.Inhabits (underlying.getD word))
      (following : Fits t underlying value.wordType (next + 1) rest values) :
      Fits t underlying word next (⟨name, none, span⟩ :: rest) (value :: values)

variable {site : EnumSite} {t : SymbolTable} {enumerators : List EnumeratorSpecifier}
  {values : List Constant}

/-- The values of all enumerators are there if the first has one, a number comes next, and the
others have values from there on. -/
theorem exists_values_cons {next given value : Constant} {n : Int} {e : EnumeratorSpecifier}
    {rest : List EnumeratorSpecifier} {goal : Prop}
    (hgiven : (e.value.map t.evaluate).getD (return next) = .ok given)
    (hvalue : site.convert given e.span = .ok value) (hn : value.integer? = some n)
    (hrest : ∀ following, following.integer? = some (n + 1) → following.Inhabits value.wordType →
      ((∃ others, site.values t following rest = .ok others) ↔ goal)) :
    (∃ others, site.values t next (e :: rest) = .ok others) ↔ value.HasNext ∧ goal := by
  rw [← Constant.exists_successor hn]
  constructor
  · rintro ⟨_, h⟩
    obtain ⟨given', value', following, others, hgiven', hvalue', hfollowing, hothers, -⟩ :=
      EnumSite.values_cons_eq_ok.mp h
    cases hgiven.symm.trans hgiven'
    cases hvalue.symm.trans hvalue'
    obtain ⟨m, hm, hnext, hword⟩ := Constant.successor_eq_ok.mp hfollowing
    cases hn.symm.trans hm
    exact ⟨⟨following, hfollowing⟩, (hrest following hnext hword).mp ⟨others, hothers⟩⟩
  · rintro ⟨⟨following, hfollowing⟩, hgoal⟩
    obtain ⟨m, hm, hnext, hword⟩ := Constant.successor_eq_ok.mp hfollowing
    cases hn.symm.trans hm
    obtain ⟨others, hothers⟩ := (hrest following hnext hword).mpr hgoal
    exact ⟨_, EnumSite.values_cons_eq_ok.mpr
      ⟨given, value, following, others, hgiven, hvalue, hfollowing, hothers, rfl⟩⟩

/-- Enumerators whose values fit have values if there is a number after each of them. The
induction goes along the enumerators, with a constant for the number that comes next. -/
theorem exists_values_iff {next : Constant} {word : Primitive} {n : Int}
    (hn : next.integer? = some n) (hword : next.Inhabits word)
    (h : Fits t site.underlying word n enumerators values) :
    (∃ others, site.values t next enumerators = .ok others) ↔ ∀ v ∈ values, v.HasNext := by
  induction h generalizing next with
  | nil word n => exact ⟨fun _ => nofun, fun _ => ⟨[], rfl⟩⟩
  | given evaluated integer same fits following ih =>
    rw [List.forall_mem_cons]
    refine exists_values_cons evaluated (EnumSite.convert_eq_ok.mpr ?_) same fun next => ih
    cases hunderlying : site.underlying with
    | none =>
      rw [hunderlying] at fits
      refine ⟨fits, ?_⟩
      rw [← Constant.integer?_isSome, integer]
      rfl
    | some type =>
      rw [hunderlying] at fits
      exact Constant.convert_of_inhabits integer same fits
  | counted integer fits following ih =>
    rw [List.forall_mem_cons]
    refine exists_values_cons rfl (EnumSite.convert_eq_ok.mpr ?_) integer fun next => ih
    cases hunderlying : site.underlying with
    | none =>
      rw [hunderlying] at fits
      refine ⟨Constant.eq_of_inhabits integer hn fits hword, ?_⟩
      rw [← Constant.integer?_isSome, hn]
      rfl
    | some type =>
      rw [hunderlying] at fits
      exact Constant.convert_of_inhabits hn integer fits

variable {s : Session} {id : SymbolId} {span : Span}

/-- An enum that is not complete, with enumerators whose names are different and free and whose
values fit, is completed if there is a number after each of the values. -/
theorem defineEnum_succeeds_iff {config : Config} (hs : (start config).Run s)
    (hop : (Operation.defineEnum id enumerators span).IsOn s) {data : EnumData}
    (hdata : (s.table.symbol id).entity = .enumeration data)
    (hundefined : (s.table.symbol id).isDefined = false)
    (hnames : (enumerators.map (·.name)).Nodup)
    (hfree : ∀ e ∈ enumerators, ∀ scope, (s.table.symbol id).scope = some scope ∨
      data.isScoped = false ∧ (s.table.symbol id).enclosing = scope →
        s.table.lookupIn scope e.name .any = none)
    (hfits :
      Fits s.table (data.underlying.bind s.types.primitive?) .longLong 0 enumerators values) :
    (∃ u, exec (defineEnum id enumerators span) s = (.ok (), u)) ↔ ∀ v ∈ values, v.HasNext := by
  have hinOrder := InOrder.of_run hs
  have hid : s.table.HasSymbol id := hop.known.head
  obtain ⟨own, hown⟩ := hinOrder.exists_scope hid (congrArg Entity.kind hdata) rfl
  let site : EnumSite :=
    ⟨own, if data.isScoped then none else some (s.table.symbol id).enclosing,
      data.underlying.bind s.types.primitive?⟩
  have hsite : site.IsOf id s := ⟨hid, hown, data, hdata, rfl, rfl⟩
  have hadmits : site.Admits s.table enumerators := by
    refine ⟨hnames, fun e he => ?_⟩
    rw [EnumSite.hasName, hfree e he own (.inl hown), Option.isSome_none, Bool.false_or]
    cases hscoped : data.isScoped with
    | true => simp [site, hscoped]
    | false => simp [site, hscoped, hfree e he _ (.inr ⟨hscoped, rfl⟩)]
  have hvalues : (∃ others, site.values s.table (.int 0) enumerators = .ok others) ↔
      ∀ v ∈ values, v.HasNext :=
    exists_values_iff rfl (Constant.inhabits_longLong.mpr ⟨0, rfl⟩) hfits
  rw [← hvalues]
  constructor
  · rintro ⟨u, hu⟩
    obtain ⟨-, other, hother, -, others, hothers, -⟩ := (defineEnum_eq_ok hinOrder.closed hop).mp hu
    rw [hsite.eq hother] at hothers
    exact ⟨others, hothers⟩
  · rintro ⟨others, hothers⟩
    exact ⟨_, (defineEnum_eq_ok hinOrder.closed hop).mpr
      ⟨hundefined, site, hsite, hadmits, others, hothers, rfl⟩⟩

/-- The last signed word fits an enum without a type of its own, and so does the one before. With
the first one the enum is refused, and with the second one it is completed. -/
theorem defineEnum_succeeds_iff_last :
    let s := (Operation.declareEnum "Word" false none .synthesized).after (start .standard)
    let items (value : Int64) : List EnumeratorSpecifier :=
      [⟨"last", some (.literal (.int value) .synthesized), .synthesized⟩]
    let last := Int64.maxValue
    Fits s.table none .longLong 0 (items last) [.int last] ∧
      (¬ ∃ u, exec (defineEnum ⟨0⟩ (items last) .synthesized) s = (.ok (), u)) ∧
      ∃ u, exec (defineEnum ⟨0⟩ (items (last - 1)) .synthesized) s = (.ok (), u) := by
  intro s items last
  have hrun : (start .standard).Run s := Run.refl.step _ .of_handles_nil
  have hhas : s.table.HasSymbol ⟨0⟩ := by decide +kernel
  have hop : ∀ value, (Operation.defineEnum ⟨0⟩ (items value) .synthesized).IsOn s := fun value =>
    .of_symbol hhas
  have hundefined : (s.table.symbol ⟨0⟩).isDefined = false := by decide +kernel
  have hscope : (s.table.symbol ⟨0⟩).scope = some ⟨1⟩ ∧ (s.table.symbol ⟨0⟩).enclosing = ⟨0⟩ := by
    decide +kernel
  have hnone : s.table.lookupIn ⟨1⟩ "last" .any = none ∧
      s.table.lookupIn ⟨0⟩ "last" .any = none := by decide +kernel
  have hfree : ∀ value, ∀ e ∈ items value, ∀ scope, (s.table.symbol ⟨0⟩).scope = some scope ∨
      false = false ∧ (s.table.symbol ⟨0⟩).enclosing = scope →
        s.table.lookupIn scope e.name .any = none := by
    rintro value e he scope hscope'
    cases List.mem_singleton.mp he
    rw [hscope.1, hscope.2] at hscope'
    rcases hscope' with h | ⟨-, rfl⟩
    · cases h
      exact hnone.1
    · exact hnone.2
  have hfits : ∀ value, Fits s.table none .longLong 0 (items value) [.int value] := fun value =>
    .given rfl rfl rfl rfl (.nil _ _)
  refine ⟨hfits last, fun hlast => ?_, ?_⟩
  · have hnext := (defineEnum_succeeds_iff hrun (hop last) rfl hundefined (List.nodup_singleton _)
      (hfree last) (hfits last)).mp hlast (.int last) List.mem_cons_self _ rfl
    obtain ⟨w, hw⟩ := Constant.inRange_longLong.mp hnext
    have hrange := isSignedWord_iff.mp (isSignedWord_toInt w)
    have hmax : last.toInt = 2 ^ 63 - 1 := by decide
    omega
  · refine (defineEnum_succeeds_iff hrun (hop (last - 1)) rfl hundefined (List.nodup_singleton _)
      (hfree (last - 1)) (hfits (last - 1))).mpr fun v hv n hn => ?_
    cases List.mem_singleton.mp hv
    cases hn
    exact Constant.inRange_longLong.mpr ⟨last, by decide⟩

end Session

end TemplateAnalysis
