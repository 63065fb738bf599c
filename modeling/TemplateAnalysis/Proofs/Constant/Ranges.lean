import TemplateAnalysis.Proofs.Constant.Words

/-!
# Ranges of integral types

The range of an integral type is that of the words of its width, with a sign or without. No
width is greater than that of the words that constants are made of, so every integer of the
range is a constant of the sort of the type. Conversion takes exactly these integers, and what
it makes of one depends on nothing else of the constant that it takes it from.
-/

namespace TemplateAnalysis

namespace Primitive

def width : Primitive → Nat
  | bool => 1
  | char | signedChar | unsignedChar => 8
  | short | unsignedShort | char16 => 16
  | int | unsignedInt | wideChar | char32 => 32
  | long | unsignedLong | longLong | unsignedLongLong => 64
  | void | float | double | longDouble => 0

theorem width_le (type : Primitive) : type.width ≤ 64 := by cases type <;> decide

theorem range?_of_isIntegral {type : Primitive} (h : type.isIntegral = true) :
    type.range? =
      some (if type.isUnsigned then unsignedRange type.width else signedRange type.width) := by
  cases type <;> first | rfl | cases h

end Primitive

namespace Constant

variable {c v w : Constant} {n : Int} {type : Primitive}

theorem isIntegral_of_inRange (h : InRange type n) : type.isIntegral = true := by
  obtain ⟨_, _, hrange, _⟩ := h
  rw [← type.range?_isSome, hrange]
  rfl

theorem inRange_iff_of_range? {bounds : Int × Int} (h : type.range? = some bounds) :
    InRange type n ↔ bounds.1 ≤ n ∧ n ≤ bounds.2 := by
  constructor
  · rintro ⟨_, _, hrange, hn⟩
    cases h.symm.trans hrange
    exact hn
  · exact fun hn => ⟨_, _, h, hn⟩

theorem inRange_iff_of_isUnsigned (htype : type.isIntegral = true)
    (hunsigned : type.isUnsigned = true) : InRange type n ↔ 0 ≤ n ∧ n < 2 ^ type.width := by
  rw [inRange_iff_of_range? (Primitive.range?_of_isIntegral htype), hunsigned, if_pos rfl,
    Primitive.unsignedRange, Nat.one_shiftLeft]
  push_cast
  omega

theorem inRange_iff_of_isSigned (htype : type.isIntegral = true)
    (hsigned : type.isUnsigned = false) :
    InRange type n ↔ -2 ^ (type.width - 1) ≤ n ∧ n < 2 ^ (type.width - 1) := by
  rw [inRange_iff_of_range? (Primitive.range?_of_isIntegral htype), hsigned,
    if_neg Bool.false_ne_true, Primitive.signedRange, Nat.one_shiftLeft]
  push_cast
  omega

theorem inRange_longLong : InRange .longLong n ↔ ∃ w : Int64, w.toInt = n := by
  rw [inRange_iff_of_isSigned rfl rfl]
  constructor
  · rintro ⟨hle, hlt⟩
    exact ⟨Int64.ofInt n, Int64.toInt_ofInt_of_le hle hlt⟩
  · rintro ⟨w, rfl⟩
    exact isSignedWord_iff.mp (isSignedWord_toInt w)

theorem inRange_unsignedLongLong :
    InRange .unsignedLongLong n ↔ ∃ w : UInt64, (w.toNat : Int) = n := by
  rw [inRange_iff_of_isUnsigned rfl rfl]
  constructor
  · rintro ⟨hle, hlt⟩
    have hsize : n.toNat < UInt64.size := (Int.toNat_lt hle).mpr hlt
    refine ⟨UInt64.ofNat n.toNat, ?_⟩
    rw [UInt64.toNat_ofNat_of_lt' hsize, Int.toNat_of_nonneg hle]
  · rintro ⟨w, rfl⟩
    exact ⟨Int.natCast_nonneg _, Int.ofNat_lt.mpr w.toNat_lt⟩

/-! ### The constant of an integer -/

/-- An integer of a range is a word of the sort of the type. -/
theorem exists_inhabits (hn : InRange type n) (hbool : type ≠ .bool) :
    ∃ v : Constant, v.integer? = some n ∧ v.Inhabits type := by
  have htype := isIntegral_of_inRange hn
  cases hsort : type.isUnsigned with
  | true =>
    have hbounds := (inRange_iff_of_isUnsigned htype hsort).mp hn
    have hwidth : (2 : Int) ^ type.width ≤ 2 ^ 64 := by
      exact_mod_cast Nat.pow_le_pow_right (by decide) type.width_le
    obtain ⟨w, rfl⟩ := inRange_unsignedLongLong.mp
      ((inRange_iff_of_isUnsigned rfl rfl).mpr ⟨hbounds.1, hbounds.2.trans_le hwidth⟩)
    exact ⟨uint w, rfl, hsort, hbool, hn⟩
  | false =>
    have hbounds := (inRange_iff_of_isSigned htype hsort).mp hn
    have hwidth : (2 : Int) ^ (type.width - 1) ≤ 2 ^ 63 := by
      exact_mod_cast Nat.pow_le_pow_right (by decide) (Nat.sub_le_sub_right type.width_le 1)
    obtain ⟨w, rfl⟩ := inRange_longLong.mp ((inRange_iff_of_isSigned rfl rfl).mpr
      ⟨(Int.neg_le_neg hwidth).trans hbounds.1, hbounds.2.trans_le hwidth⟩)
    exact ⟨int w, rfl, hsort, hn⟩

theorem ofInteger?_of_inhabits (hn : v.integer? = some n) (hv : v.Inhabits type)
    (hbool : type ≠ .bool) : ofInteger? type n = some v := by
  cases v with
  | int w =>
    cases hn
    obtain ⟨hsigned, least, greatest, hrange, hin⟩ := hv
    rw [ofInteger?, hrange]
    dsimp only
    rw [if_pos hin, hsigned, signedWord?_eq_some.mpr rfl]
    rfl
  | uint w =>
    cases hn
    obtain ⟨hunsigned, -, least, greatest, hrange, hin⟩ := hv
    rw [ofInteger?, hrange]
    dsimp only
    rw [if_pos hin, hunsigned, unsignedWord?_eq_some.mpr rfl]
    rfl
  | bool b => exact absurd hv hbool
  | float x => cases hn

/-- A type takes a constant as the value of the type that is the same integer. -/
theorem convert_of_inhabits (hc : c.integer? = some n) (hn : v.integer? = some n)
    (hv : v.Inhabits type) : c.convert type = .ok v := by
  by_cases hbool : type = .bool
  · subst hbool
    cases v with
    | bool b =>
      cases hn
      rw [convert, isTruthy_eq hc]
      cases b <;> rfl
    | int w => cases hv.1
    | uint w => exact absurd rfl hv.2.1
    | float x => cases hn
  · have hinteger := ofInteger?_of_inhabits hn hv hbool
    have htype := isIntegral_of_inRange (ofInteger?_eq_some hinteger).2.1
    exact (convert_of_isIntegral htype hbool).mpr ⟨n, hc, hinteger⟩

theorem eq_of_inhabits (hv : v.integer? = some n) (hc : c.integer? = some n)
    (hv' : v.Inhabits type) (hc' : c.Inhabits type) : v = c :=
  Except.ok.inj ((convert_of_inhabits hv hv hv').symm.trans (convert_of_inhabits hv hc hc'))

/-! ### Conversion -/

def integerEncoding (isUnsigned : Bool) (n : Int) : String :=
  (if isUnsigned then "Lj" else if n < 0 then "Lin" else "Li") ++ toString n.natAbs ++ "E"

theorem encoding_int (x : Int64) : (int x).encoding = integerEncoding false x.toInt := by
  rw [encoding, integerEncoding]
  split <;> rfl

theorem encoding_uint (x : UInt64) : (uint x).encoding = integerEncoding true x.toNat := rfl

def IsWord (isUnsigned : Bool) (n : Int) (w : Constant) : Prop :=
  w.integer? = some n ∧ if isUnsigned then ∃ x, w = uint x else ∃ x, w = int x

theorem isWord_of_convert (htype : type.isIntegral = true) (hbool : type ≠ .bool)
    (h : c.convert type = .ok w) :
    ∃ n, c.integer? = some n ∧ InRange type n ∧ w.IsWord type.isUnsigned n := by
  obtain ⟨n, hc, hn⟩ := (convert_of_isIntegral htype hbool).mp h
  obtain ⟨hw, hrange, hsort⟩ := ofInteger?_eq_some hn
  exact ⟨n, hc, hrange, hw, hsort⟩

theorem IsWord.encoding_eq {isUnsigned : Bool} (h : w.IsWord isUnsigned n) :
    w.encoding = integerEncoding isUnsigned n := by
  obtain ⟨hn, hsort⟩ := h
  cases isUnsigned with
  | true =>
    obtain ⟨x, rfl⟩ := hsort
    cases hn
    exact encoding_uint x
  | false =>
    obtain ⟨x, rfl⟩ := hsort
    cases hn
    exact encoding_int x

theorem IsWord.eq {isUnsigned : Bool} (hv : v.IsWord isUnsigned n) (hw : w.IsWord isUnsigned n) :
    v = w := by
  obtain ⟨hvn, hvsort⟩ := hv
  obtain ⟨hwn, hwsort⟩ := hw
  cases isUnsigned with
  | true =>
    obtain ⟨x, rfl⟩ := hvsort
    obtain ⟨y, rfl⟩ := hwsort
    have hvalues := Int.ofNat_inj.mp (Option.some.inj (hvn.trans hwn.symm))
    exact congrArg uint (UInt64.toNat_inj.mp hvalues)
  | false =>
    obtain ⟨x, rfl⟩ := hvsort
    obtain ⟨y, rfl⟩ := hwsort
    exact congrArg int (Int64.toInt_inj.mp (Option.some.inj (hvn.trans hwn.symm)))

/-- An integral type other than `bool` takes a constant exactly if it is an integer of the range
of the type. What it makes of the constant is the word of that integer, without a sign if the type
has none, and is encoded as the integer and the missing sign say. So two constants become the same
exactly if they are the same integer. And what any type has made of a constant it leaves as it
is. -/
theorem convert_isIntegral (htype : type.isIntegral = true) (hbool : type ≠ .bool) :
    (∀ c : Constant, (∃ w, c.convert type = .ok w) ↔ ∃ n, c.integer? = some n ∧ InRange type n) ∧
    (∀ c w : Constant, c.convert type = .ok w → ∃ n, c.integer? = some n ∧
      w.IsWord type.isUnsigned n ∧ w.encoding = integerEncoding type.isUnsigned n) ∧
    (∀ c c' w w' : Constant, c.convert type = .ok w → c'.convert type = .ok w' →
      (w = w' ↔ c.integer? = c'.integer?)) ∧
    ∀ (other : Primitive) (c w : Constant), c.convert other = .ok w → w.convert other = .ok w := by
  refine ⟨fun c => ⟨?_, ?_⟩, fun c w h => ?_, fun c c' w w' h h' => ?_,
    fun _ _ _ => convert_convert⟩
  · rintro ⟨w, h⟩
    obtain ⟨n, hc, hrange, _⟩ := isWord_of_convert htype hbool h
    exact ⟨n, hc, hrange⟩
  · rintro ⟨n, hc, hrange⟩
    obtain ⟨w, hw, hinhabits⟩ := exists_inhabits hrange hbool
    exact ⟨w, convert_of_inhabits hc hw hinhabits⟩
  · obtain ⟨n, hc, _, hword⟩ := isWord_of_convert htype hbool h
    exact ⟨n, hc, hword, hword.encoding_eq⟩
  · obtain ⟨n, hc, _, hword⟩ := isWord_of_convert htype hbool h
    obtain ⟨m, hc', _, hword'⟩ := isWord_of_convert htype hbool h'
    rw [hc, hc', Option.some_inj]
    constructor
    · rintro rfl
      exact Option.some.inj (hword.1.symm.trans hword'.1)
    · rintro rfl
      exact hword.eq hword'

/-- `unsigned char` takes the signed 255 as the unsigned one, and does not take 256. -/
theorem convert_isIntegral_unsignedChar :
    (∃ w, (int 255).convert .unsignedChar = .ok w ∧ w.IsWord true 255 ∧ w.encoding = "Lj255E" ∧
      w.convert .unsignedChar = .ok w) ∧
    ¬ ∃ w, (int 256).convert .unsignedChar = .ok w := by
  have hintegral : Primitive.unsignedChar.isIntegral = true := rfl
  obtain ⟨htakes, hword, -, hagain⟩ := convert_isIntegral hintegral (by decide)
  have hrange : ∀ n, InRange .unsignedChar n ↔ 0 ≤ n ∧ n < 2 ^ 8 := fun n =>
    inRange_iff_of_isUnsigned rfl rfl
  constructor
  · obtain ⟨w, hw⟩ := (htakes (int 255)).mpr ⟨255, rfl, (hrange 255).mpr (by decide)⟩
    obtain ⟨n, hn, hsort, hencoding⟩ := hword _ w hw
    cases hn
    exact ⟨w, hw, hsort, hencoding.trans (by decide), hagain _ _ w hw⟩
  · rw [htakes]
    rintro ⟨n, hn, hin⟩
    cases hn
    exact absurd ((hrange 256).mp hin) (by decide)

end Constant

end TemplateAnalysis
