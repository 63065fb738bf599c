import Mathlib.Data.Int.Bitwise
import Mathlib.Data.Int.ModEq
import TemplateAnalysis.Constant.Arithmetic
import TemplateAnalysis.Proofs.Constant.Conversion

/-!
# Words and integers

Arithmetic on constants is done on words of 64 bits, and what it should be is said with
integers. An integer has a residue, the word of its low bits, and the operations on words are
those on integers taken to residues, also bit by bit, where a negative integer has infinitely
many leading ones. A signed word is read as an integer, and the operations that cannot leave
the range of signed words are then exact.
-/

namespace TemplateAnalysis

/-! ### Residues -/

theorem getLsbD_ofInt (w : Nat) (n : Int) (i : Nat) :
    (BitVec.ofInt w n).getLsbD i = (decide (i < w) && n.testBit i) := by
  cases n with
  | ofNat m => exact BitVec.getLsbD_ofNat w m i
  | negSucc m =>
    rw [BitVec.ofInt_negSucc_eq_not_ofNat, BitVec.getLsbD_not, BitVec.getLsbD_ofNat, Int.testBit]
    by_cases hi : i < w <;> simp [hi]

/-- An operation on words that works bit by bit is one on integers, taken to residues. -/
theorem ofInt_bitwise {w : Nat} {f : Bool → Bool → Bool} {op : BitVec w → BitVec w → BitVec w}
    (hop : ∀ x y, ∀ i < w, (op x y).getLsbD i = f (x.getLsbD i) (y.getLsbD i)) (m n : Int) :
    BitVec.ofInt w (Int.bitwise f m n) = op (BitVec.ofInt w m) (BitVec.ofInt w n) := by
  refine BitVec.eq_of_getLsbD_eq fun i hi => ?_
  rw [hop _ _ i hi, getLsbD_ofInt, getLsbD_ofInt, getLsbD_ofInt, Int.testBit_bitwise]
  simp [hi]

theorem ofInt_land (w : Nat) (m n : Int) :
    BitVec.ofInt w (m.land n) = BitVec.ofInt w m &&& BitVec.ofInt w n := by
  rw [← Int.bitwise_and]
  exact ofInt_bitwise (fun _ _ _ _ => BitVec.getLsbD_and) m n

theorem ofInt_lor (w : Nat) (m n : Int) :
    BitVec.ofInt w (m.lor n) = BitVec.ofInt w m ||| BitVec.ofInt w n := by
  rw [← Int.bitwise_or]
  exact ofInt_bitwise (fun _ _ _ _ => BitVec.getLsbD_or) m n

theorem ofInt_xor (w : Nat) (m n : Int) :
    BitVec.ofInt w (m.xor n) = BitVec.ofInt w m ^^^ BitVec.ofInt w n := by
  rw [← Int.bitwise_xor]
  exact ofInt_bitwise (fun _ _ _ _ => BitVec.getLsbD_xor) m n

theorem ofInt_complement (w : Nat) (n : Int) : BitVec.ofInt w (-n - 1) = ~~~BitVec.ofInt w n := by
  rw [BitVec.not_eq_neg_add, Int.sub_eq_add_neg, BitVec.ofInt_add, BitVec.ofInt_neg,
    BitVec.ofInt_neg, BitVec.ofInt_ofNat, BitVec.sub_eq_add_neg]

theorem ofInt_eq_iff {w : Nat} {m n : Int} :
    BitVec.ofInt w m = BitVec.ofInt w n ↔ m ≡ n [ZMOD 2 ^ w] := by
  have hpos : ((2 : Int) ^ w) ≠ 0 := pow_ne_zero w two_ne_zero
  rw [← BitVec.toNat_inj, BitVec.toNat_ofInt, BitVec.toNat_ofInt, Int.ModEq]
  push_cast
  have hm := Int.emod_nonneg m hpos
  have hn := Int.emod_nonneg n hpos
  omega

/-! ### Signed words -/

def IsSignedWord (n : Int) : Prop := Int64.minValue.toInt ≤ n ∧ n ≤ Int64.maxValue.toInt

instance (n : Int) : Decidable (IsSignedWord n) := inferInstanceAs (Decidable (_ ∧ _))

theorem isSignedWord_iff {n : Int} : IsSignedWord n ↔ -2 ^ 63 ≤ n ∧ n < 2 ^ 63 := by
  have hmin : Int64.minValue.toInt = -2 ^ 63 := by decide
  have hmax : Int64.maxValue.toInt = 2 ^ 63 - 1 := by decide
  rw [IsSignedWord, hmin, hmax]
  omega

theorem isSignedWord_toInt (a : Int64) : IsSignedWord a.toInt :=
  ⟨a.minValue_le_toInt, a.toInt_le⟩

theorem ofInt_toInt_toBitVec (a : Int64) : BitVec.ofInt 64 a.toInt = a.toBitVec := by
  rw [← Int64.toInt_toBitVec, BitVec.ofInt_toInt]

theorem toInt_eq_of_ofInt {a : Int64} {n : Int} (hn : IsSignedWord n)
    (h : a.toBitVec = BitVec.ofInt 64 n) : a.toInt = n := by
  obtain ⟨hle, hlt⟩ := isSignedWord_iff.mp hn
  rw [← Int64.toInt_toBitVec, h, BitVec.toInt_ofInt]
  exact Int.bmod_eq_of_le (by omega) (by omega)

theorem signedWord?_eq_some {n : Int} {w : Int64} : signedWord? n = some w ↔ w.toInt = n := by
  refine ⟨toInt_of_signedWord?, ?_⟩
  rintro rfl
  rw [signedWord?, if_pos ⟨w.minValue_le_toInt, w.toInt_le⟩, Int64.ofInt_toInt]

theorem unsignedWord?_eq_some {n : Int} {w : UInt64} : unsignedWord? n = some w ↔ w.toNat = n := by
  refine ⟨toNat_of_unsignedWord?, ?_⟩
  rintro rfl
  rw [unsignedWord?, if_pos ⟨Int.natCast_nonneg _, Int.ofNat_lt.mpr w.toNat_lt⟩, Int.toNat_natCast,
    UInt64.ofNat_toNat]

theorem exactly_eq_ok {n : Int} {w : Int64} : exactly n = .ok w ↔ w.toInt = n := by
  rw [← signedWord?_eq_some, exactly]
  cases signedWord? n <;> simp

theorem eq_ofInt_of_exactly {n : Int} {w : Int64} (h : exactly n = .ok w) : w = Int64.ofInt n := by
  rw [← exactly_eq_ok.mp h, Int64.ofInt_toInt]

/-- An operation on bits does not lead from signed words to an integer that does not fit. -/
theorem isSignedWord_bitwise (f : Bool → Bool → Bool) {m n : Int} (hm : IsSignedWord m)
    (hn : IsSignedWord n) : IsSignedWord (Int.bitwise f m n) := by
  rw [isSignedWord_iff] at hm hn ⊢
  have hnat : ∀ (g : Bool → Bool → Bool) (x y : Nat), x < 2 ^ 63 → y < 2 ^ 63 →
      -2 ^ 63 ≤ Int.natBitwise g x y ∧ Int.natBitwise g x y < 2 ^ 63 := by
    intro g x y hx hy
    rw [Int.natBitwise]
    cases g false false with
    | false =>
      have hlt := Nat.bitwise_lt_two_pow (f := g) hx hy
      simp only [cond_false]
      omega
    | true =>
      have hlt := Nat.bitwise_lt_two_pow (f := fun a b => !g a b) hx hy
      simp only [cond_true]
      omega
  rcases m with x | x <;> rcases n with y | y <;> rw [Int.bitwise] <;>
    exact hnat _ x y (by grind) (by grind)

theorem toInt_eq_bitwise {f : Bool → Bool → Bool} {a b c : Int64}
    (h : BitVec.ofInt 64 (Int.bitwise f a.toInt b.toInt) = c.toBitVec) :
    c.toInt = Int.bitwise f a.toInt b.toInt :=
  toInt_eq_of_ofInt (isSignedWord_bitwise f (isSignedWord_toInt a) (isSignedWord_toInt b)) h.symm

theorem toInt_and (a b : Int64) : (a &&& b).toInt = a.toInt.land b.toInt := by
  rw [← Int.bitwise_and]
  refine toInt_eq_bitwise ?_
  rw [Int.bitwise_and, ofInt_land, ofInt_toInt_toBitVec, ofInt_toInt_toBitVec, Int64.toBitVec_and]

theorem toInt_or (a b : Int64) : (a ||| b).toInt = a.toInt.lor b.toInt := by
  rw [← Int.bitwise_or]
  refine toInt_eq_bitwise ?_
  rw [Int.bitwise_or, ofInt_lor, ofInt_toInt_toBitVec, ofInt_toInt_toBitVec, Int64.toBitVec_or]

theorem toInt_xor (a b : Int64) : (a ^^^ b).toInt = a.toInt.xor b.toInt := by
  rw [← Int.bitwise_xor]
  refine toInt_eq_bitwise ?_
  rw [Int.bitwise_xor, ofInt_xor, ofInt_toInt_toBitVec, ofInt_toInt_toBitVec, Int64.toBitVec_xor]

theorem toInt_complement (a : Int64) : (~~~a).toInt = -a.toInt - 1 := by
  have hword := isSignedWord_iff.mp (isSignedWord_toInt a)
  rw [Int64.toInt_not]
  exact Int.bmod_eq_of_le (by omega) (by omega)

/-! ### Shifts -/

theorem shiftPlaces?_eq_ok {count : Int64} {places : Nat} :
    shiftPlaces? count = .ok places ↔ count.toInt = places ∧ places < 64 := by
  unfold shiftPlaces?
  split
  · simp only [Except.ok.injEq]
    omega
  · simp only [reduceCtorEq, false_iff]
    omega

/-- The number of places as a word, as the shift of a word takes it. -/
theorem smod_ofNat {places : Nat} (h : places < 64) :
    (Int64.ofNat places).toBitVec.smod 64 = BitVec.ofNat 64 places := by
  have hmsb : (BitVec.ofNat 64 places).msb = false := by
    rw [BitVec.msb_eq_false_iff_two_mul_lt, BitVec.toNat_ofNat]
    omega
  rw [Int64.toBitVec_ofNat', BitVec.smod_eq, hmsb]
  change BitVec.ofNat 64 places % 64#64 = _
  refine BitVec.eq_of_toNat_eq ?_
  rw [BitVec.toNat_umod, BitVec.toNat_ofNat]
  change _ % 64 = _
  omega

theorem ofInt_two_pow (places : Nat) : BitVec.ofInt 64 (2 ^ places) = BitVec.twoPow 64 places := by
  refine BitVec.eq_of_toNat_eq ?_
  rw [BitVec.toNat_ofInt, BitVec.toNat_twoPow]
  norm_cast

theorem toInt_shiftLeft (a : Int64) {places : Nat} (h : places < 64) :
    (a <<< Int64.ofNat places).toInt = (a.toInt * 2 ^ places).bmod (2 ^ 64) := by
  rw [← BitVec.toInt_ofInt, BitVec.ofInt_mul, ofInt_toInt_toBitVec, ofInt_two_pow,
    BitVec.mul_twoPow_eq_shiftLeft, ← Int64.toInt_toBitVec, Int64.toBitVec_shiftLeft,
    smod_ofNat h, BitVec.shiftLeft_eq', BitVec.toNat_ofNat, Nat.mod_eq_of_lt (by omega)]

theorem toInt_shiftRight (a : Int64) {places : Nat} (h : places < 64) :
    (a >>> Int64.ofNat places).toInt = a.toInt.fdiv (2 ^ places) := by
  rw [← Int64.toInt_toBitVec, Int64.toBitVec_shiftRight, smod_ofNat h, BitVec.toInt_sshiftRight',
    BitVec.toNat_ofNat, Nat.mod_eq_of_lt (by omega), Int.shiftRight_eq_div_pow,
    Int.fdiv_eq_ediv_of_nonneg _ (Int.pow_nonneg (by decide)), Int64.toInt_toBitVec]
  norm_cast

/-! ### Truth -/

theorem Constant.isTruthy_eq {c : Constant} {n : Int} (h : c.integer? = some n) :
    c.isTruthy = decide (n ≠ 0) := by
  cases c with
  | int v =>
    cases h
    rw [isTruthy, Bool.eq_iff_iff, bne_iff_ne, decide_eq_true_iff, Ne, Ne, ← Int64.toInt_inj,
      Int64.toInt_zero]
  | uint v =>
    cases h
    rw [isTruthy, Bool.eq_iff_iff, bne_iff_ne, decide_eq_true_iff, Ne, Ne, ← UInt64.toNat_inj]
    norm_cast
  | bool b =>
    cases h
    cases b <;> rfl
  | float v => cases h

end TemplateAnalysis
