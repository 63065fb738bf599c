import TemplateAnalysis.Proofs.Ast.IntegerValues
import TemplateAnalysis.SymbolTable.Values

/-!
# Signed expressions

On signed words and truth values an operator has its value over the integers, or it is refused;
only a left shift keeps what is left in the word. Evaluation of an expression whose constants
are signed follows the value over the integers from operand to operand, so that a value that
it returns is exact unless a left shift has left bits out.
-/

namespace TemplateAnalysis

namespace Constant

def isSigned : Constant → Bool
  | int _ | bool _ => true
  | uint _ | float _ => false

variable {a b c : Constant} {m n : Int}

theorem integer?_of_isSigned (hc : c.isSigned = true) : ∃ n, c.integer? = some n := by
  cases c with
  | int v | bool b => exact ⟨_, rfl⟩
  | uint v | float v => cases hc

theorem toInt_wrapped (hc : c.isSigned = true) (h : c.integer? = some n) :
    c.wrapped.toInt64.toInt = n := by
  cases c with
  | int v =>
    cases h
    rw [wrapped, Int64.toInt64_toUInt64]
  | bool b =>
    cases h
    cases b <;> rfl
  | uint v | float v => cases hc

theorem balance_of_isSigned (ha : a.isSigned = true) (hb : b.isSigned = true) :
    a.balance b = .signed a.wrapped.toInt64 b.wrapped.toInt64 := by
  cases a <;> cases ha <;> cases b <;> cases hb <;> rfl

end Constant

/-! ### Operators -/

namespace UnaryOp

theorem apply_of_isSigned {op : UnaryOp} {c v : Constant} {n : Int} (hc : c.isSigned = true)
    (hn : c.integer? = some n) (h : op.apply c = .ok v) :
    v.isSigned = true ∧ v.integer? = some (op.onInteger n) := by
  cases op with
  | not =>
    cases h
    rw [Constant.isTruthy_eq hn, decide_not, Bool.not_not]
    exact ⟨rfl, rfl⟩
  | plus =>
    cases c with
    | int a =>
      cases h
      exact ⟨rfl, hn⟩
    | bool b =>
      cases h
      cases hn
      cases b <;> exact ⟨rfl, rfl⟩
    | uint a | float a => cases hc
  | minus =>
    cases c with
    | int a =>
      obtain ⟨w, hw, rfl⟩ := map_eq_ok.mp h
      cases hn
      exact ⟨rfl, congrArg some (exactly_eq_ok.mp hw)⟩
    | bool b =>
      cases h
      cases hn
      cases b <;> exact ⟨rfl, rfl⟩
    | uint a | float a => cases hc
  | complement =>
    cases c with
    | int a =>
      cases h
      cases hn
      exact ⟨rfl, congrArg some (toInt_complement a)⟩
    | bool b =>
      cases h
      cases hn
      cases b <;> exact ⟨rfl, rfl⟩
    | uint a | float a => cases hc

end UnaryOp

namespace BinaryOp

variable {fit : Int → Option Int} {op : BinaryOp}

theorem onIntegers_of_isComparison (hop : op.isComparison = true) (m n : Int) :
    op.onIntegers fit m n = some (op.holds (some (compare m n))).toNat := by
  rcases lt_trichotomy m n with h | h | h
  · rw [compare_lt_iff_lt.mpr h]
    cases op <;> cases hop <;> simp [onIntegers, holds] <;> omega
  · rw [compare_eq_iff_eq.mpr h]
    cases op <;> cases hop <;> simp [onIntegers, holds] <;> omega
  · rw [compare_gt_iff_gt.mpr h]
    cases op <;> cases hop <;> simp [onIntegers, holds] <;> omega

theorem onSigned_eq_ok {a b w : Int64} (hop : op.isComparison = false)
    (h : op.onSigned a b = .ok w) :
    op.onIntegers keepLowBits a.toInt b.toInt = some w.toInt := by
  have hzero : b ≠ 0 → b.toInt ≠ 0 := fun hb hzero => hb (Int64.toInt_inj.mp hzero)
  cases op with
  | add | sub | mul => exact congrArg some (exactly_eq_ok.mp h).symm
  | div =>
    rw [onSigned] at h
    split at h
    · cases h
    · rw [onIntegers, if_neg (hzero ‹_›), exactly_eq_ok.mp h]
  | rem =>
    rw [onSigned] at h
    split at h
    · cases h
    · obtain ⟨_, _, h⟩ := bind_eq_ok.mp h
      rw [onIntegers, if_neg (hzero ‹_›), exactly_eq_ok.mp h]
  | shiftLeft =>
    obtain ⟨places, hplaces, h⟩ := bind_eq_ok.mp h
    obtain ⟨hcount, hlt⟩ := shiftPlaces?_eq_ok.mp hplaces
    cases h
    rw [onIntegers, hcount, if_neg (by omega), toInt_shiftLeft a hlt]
    rfl
  | shiftRight =>
    obtain ⟨places, hplaces, h⟩ := bind_eq_ok.mp h
    obtain ⟨hcount, hlt⟩ := shiftPlaces?_eq_ok.mp hplaces
    cases h
    rw [onIntegers, hcount, if_neg (by omega), toInt_shiftRight a hlt]
    rfl
  | bitAnd =>
    cases h
    rw [onIntegers, toInt_and]
  | bitOr =>
    cases h
    rw [onIntegers, toInt_or]
  | bitXor =>
    cases h
    rw [onIntegers, toInt_xor]
  | and | or => cases h
  | eq | ne | lt | le | gt | ge => cases hop

theorem apply_of_isSigned {a b v : Constant} {m n : Int} (ha : a.isSigned = true)
    (hb : b.isSigned = true) (hm : a.integer? = some m) (hn : b.integer? = some n)
    (h : op.apply a b = .ok v) :
    v.isSigned = true ∧ ∃ k, v.integer? = some k ∧ op.onIntegers keepLowBits m n = some k := by
  have hm' := Constant.toInt_wrapped ha hm
  have hn' := Constant.toInt_wrapped hb hn
  rw [apply, Constant.balance_of_isSigned ha hb] at h
  cases hop : op.isComparison with
  | true =>
    rw [hop] at h
    cases h
    rw [onIntegers_of_isComparison hop, Constant.integer?, Operands.order?, hm', hn']
    exact ⟨rfl, _, rfl, rfl⟩
  | false =>
    rw [hop] at h
    obtain ⟨w, hw, rfl⟩ := map_eq_ok.mp h
    rw [← hm', ← hn']
    exact ⟨rfl, _, rfl, onSigned_eq_ok hop hw⟩

end BinaryOp

/-! ### Expressions -/

variable {valueOf : SymbolId → NamedValue}

/-- Evaluation gives the value over the integers in which a left shift keeps the low bits. The
induction follows evaluation, which looks at the operands that the value over the integers
depends on. -/
theorem integer?_of_evaluate {e : Node} (he : ∀ c ∈ e.constants valueOf, c.isSigned = true)
    {v : Constant} (h : e.evaluate valueOf = .ok v) :
    v.isSigned = true ∧ ∃ n, v.integer? = some n ∧ e.integer? keepLowBits valueOf = some n := by
  fun_induction Node.evaluate valueOf e generalizing v with
  | case1 value span =>
    cases h
    rw [constants_literal] at he
    have hvalue := he value List.mem_cons_self
    obtain ⟨n, hn⟩ := Constant.integer?_of_isSigned hvalue
    exact ⟨hvalue, n, hn, hn⟩
  | case2 inner span ih =>
    rw [constants_paren] at he
    exact ih he h
  | case3 text symbol span =>
    have hread := NamedValue.constant?_of_read (mapError_eq_ok.mp h)
    rw [constants_name, hread] at he
    have hv := he v List.mem_cons_self
    obtain ⟨n, hn⟩ := Constant.integer?_of_isSigned hv
    refine ⟨hv, n, hn, ?_⟩
    rw [Node.integer?, hread]
    exact hn
  | case4 text index span => cases h
  | case5 op operand span ih =>
    rw [constants_unary] at he
    obtain ⟨a, ha, h⟩ := bind_eq_ok.mp h
    obtain ⟨hsigned, n, hn, hoperand⟩ := ih he ha
    obtain ⟨hv, happly⟩ := UnaryOp.apply_of_isSigned hsigned hn (mapError_eq_ok.mp h)
    refine ⟨hv, op.onInteger n, happly, ?_⟩
    rw [Node.integer?, hoperand]
    rfl
  | case6 left right span ihl ihr =>
    rw [constants_binary, List.forall_mem_append] at he
    obtain ⟨a, ha, h⟩ := bind_eq_ok.mp h
    obtain ⟨-, m, hm, hleft⟩ := ihl he.1 ha
    rw [Constant.isTruthy_eq hm] at h
    rw [Node.integer?, hleft]
    by_cases hzero : m = 0
    · subst hzero
      cases h
      exact ⟨rfl, 0, rfl, rfl⟩
    · rw [decide_eq_true hzero] at h
      obtain ⟨b, hb, h⟩ := bind_eq_ok.mp h
      obtain ⟨-, n, hn, hright⟩ := ihr he.2 hb
      cases h
      rw [Constant.isTruthy_eq hn, hright]
      exact ⟨rfl, _, rfl, if_neg hzero⟩
  | case7 left right span ihl ihr =>
    rw [constants_binary, List.forall_mem_append] at he
    obtain ⟨a, ha, h⟩ := bind_eq_ok.mp h
    obtain ⟨-, m, hm, hleft⟩ := ihl he.1 ha
    rw [Constant.isTruthy_eq hm] at h
    rw [Node.integer?, hleft]
    by_cases hzero : m = 0
    · subst hzero
      obtain ⟨b, hb, h⟩ := bind_eq_ok.mp h
      obtain ⟨-, n, hn, hright⟩ := ihr he.2 hb
      cases h
      rw [Constant.isTruthy_eq hn, hright]
      exact ⟨rfl, _, rfl, rfl⟩
    · rw [decide_eq_true hzero] at h
      cases h
      exact ⟨rfl, 1, rfl, if_neg hzero⟩
  | case8 op left right span hand hor ihl ihr =>
    rw [constants_binary, List.forall_mem_append] at he
    obtain ⟨a, ha, h⟩ := bind_eq_ok.mp h
    obtain ⟨b, hb, h⟩ := bind_eq_ok.mp h
    obtain ⟨hsa, m, hm, hleft⟩ := ihl he.1 ha
    obtain ⟨hsb, n, hn, hright⟩ := ihr he.2 hb
    obtain ⟨hv, k, hk, happly⟩ := BinaryOp.apply_of_isSigned hsa hsb hm hn (mapError_eq_ok.mp h)
    refine ⟨hv, k, hk, ?_⟩
    rw [Node.integer?, hleft, hright]
    · exact happly
    · exact hand
    · exact hor
  | case9 condition whenTrue whenFalse span ihc iht ihf =>
    rw [constants_conditional, List.forall_mem_append, List.forall_mem_append] at he
    obtain ⟨a, ha, h⟩ := bind_eq_ok.mp h
    obtain ⟨-, m, hm, hcondition⟩ := ihc he.1.1 ha
    rw [Constant.isTruthy_eq hm] at h
    rw [Node.integer?, hcondition]
    by_cases hzero : m = 0
    · subst hzero
      exact ihf he.2 h
    · rw [decide_eq_true hzero] at h
      obtain ⟨hv, n, hn, htrue⟩ := iht he.1.2 h
      exact ⟨hv, n, hn, (if_neg hzero).trans htrue⟩
  | case10 => cases h

/-- A value that evaluation returns for an expression of signed constants is the value over the
integers in which a left shift keeps the low bits. It is the exact value where no left shift
leaves the range of a word. -/
theorem SymbolTable.evaluate_signed (t : SymbolTable) {e : Node}
    (he : ∀ c ∈ e.constants t.valueOf, c.isSigned = true) {v : Constant}
    (h : t.evaluate e = .ok v) :
    (∃ n, v.integer? = some n ∧ e.integer? keepLowBits t.valueOf = some n) ∧
      ((e.integer? onlySignedWords t.valueOf).isSome = true →
        v.integer? = e.integer? some t.valueOf) := by
  obtain ⟨-, n, hn, hkept⟩ := integer?_of_evaluate he h
  refine ⟨⟨n, hn, hkept⟩, fun hfits => ?_⟩
  obtain ⟨m, hm⟩ := Option.isSome_iff_exists.mp hfits
  obtain ⟨hkept', hexact⟩ := integer?_of_onlySignedWords hm
  rw [hexact, hn, ← hkept, hkept']

/-- A one is a power of two in every place but the highest one, where it is the least word. -/
theorem evaluate_signed_powers :
    let e (places : Int64) : Node :=
      .binary .shiftLeft (.literal (.int 1) default) (.literal (.int places) default) default
    let valueOf := SymbolTable.valueOf default
    (∀ c ∈ (e 62).constants valueOf, c.isSigned = true) ∧
      SymbolTable.evaluate default (e 62) = .ok (.int 4611686018427387904) ∧
      (Constant.int 4611686018427387904).integer? = (e 62).integer? some valueOf ∧
      (∀ c ∈ (e 63).constants valueOf, c.isSigned = true) ∧
      SymbolTable.evaluate default (e 63) = .ok (.int Int64.minValue) ∧
      (∃ n, (Constant.int Int64.minValue).integer? = some n ∧
        (e 63).integer? keepLowBits valueOf = some n) ∧
      (e 63).integer? some valueOf = some (2 ^ 63) :=
  ⟨by decide, by decide,
    (SymbolTable.evaluate_signed default (by decide) (by decide)).2 (by decide), by decide,
    by decide, (SymbolTable.evaluate_signed default (by decide) (by decide)).1, by decide⟩

end TemplateAnalysis
