import TemplateAnalysis.Proofs.Ast.IntegerValues
import TemplateAnalysis.SymbolTable.Values

/-!
# Residues of expressions

Sums, differences, products, negations and the operations on bits take residues to residues.
Whatever mixture of signed words, unsigned words and truth values such an operator is applied
to, the word of what it returns is what it makes of the words of the operands. So the value of
an expression of these operators is congruent to the value over the integers, and it is
unsigned where an operand is.
-/

namespace TemplateAnalysis

def UnaryOp.isModular : UnaryOp → Bool
  | plus | minus | complement => true
  | not => false

def BinaryOp.isModular : BinaryOp → Bool
  | add | sub | mul | bitAnd | bitOr | bitXor => true
  | _ => false

/-- Whether a node is a constant, parentheses or an operator that takes residues to residues. -/
def Node.isModular : Node → Bool
  | literal _ _ | name _ _ _ | paren _ _ => true
  | unary op _ _ => op.isModular
  | binary op _ _ _ => op.isModular
  | _ => false

def Constant.isUnsigned : Constant → Bool
  | uint _ => true
  | _ => false

/-! ### Words of constants -/

variable {a b c v : Constant}

/-- The word of an integral constant is the residue of its integer. -/
theorem ofInt_integer {n : Int} (h : c.integer? = some n) :
    BitVec.ofInt 64 n = c.wrapped.toBitVec := by
  cases c with
  | int w =>
    cases h
    exact ofInt_toInt_toBitVec w
  | uint w =>
    cases h
    rw [Constant.wrapped, BitVec.ofInt_natCast, ← UInt64.toNat_toBitVec, BitVec.ofNat_toNat,
      BitVec.setWidth_eq]
  | bool b =>
    cases h
    cases b <;> rfl
  | float w => cases h

theorem exists_ofInt_eq (hc : c.isIntegral = true) :
    ∃ n, c.integer? = some n ∧ BitVec.ofInt 64 n = c.wrapped.toBitVec := by
  obtain ⟨n, hn⟩ := Option.isSome_iff_exists.mp ((Constant.integer?_isSome c).trans hc)
  exact ⟨n, hn, ofInt_integer hn⟩

/-- Operands without a floating one are brought to their words, which are unsigned if one of
the operands is. -/
theorem Constant.balance_of_isIntegral (ha : a.isIntegral = true) (hb : b.isIntegral = true) :
    a.balance b = if a.isUnsigned || b.isUnsigned then .unsigned a.wrapped b.wrapped
      else .signed a.wrapped.toInt64 b.wrapped.toInt64 := by
  cases a <;> cases ha <;> cases b <;> cases hb <;> rfl

/-! ### Operators -/

/-- What an operator makes of a constant has the word that it makes of the word. -/
theorem UnaryOp.apply_word {op : UnaryOp} (hop : op.isModular = true) (hc : c.isIntegral = true)
    (h : op.apply c = .ok v) :
    v.isIntegral = true ∧ v.isUnsigned = c.isUnsigned ∧
      op.apply (.uint c.wrapped) = .ok (.uint v.wrapped) := by
  cases c with
  | float w => cases hc
  | uint w => cases op <;> cases hop <;> cases h <;> exact ⟨rfl, rfl, rfl⟩
  | bool b => cases op <;> cases hop <;> cases h <;> cases b <;> exact ⟨rfl, rfl, rfl⟩
  | int w =>
    cases op with
    | not => cases hop
    | plus | complement =>
      cases h
      exact ⟨rfl, rfl, rfl⟩
    | minus =>
      obtain ⟨x, hx, rfl⟩ := map_eq_ok.mp h
      refine ⟨rfl, rfl, ?_⟩
      rw [eq_ofInt_of_exactly hx, Int64.ofInt_neg, Int64.ofInt_toInt, apply, Constant.wrapped,
        Constant.wrapped, Int64.toUInt64_neg]

/-- Exact arithmetic on signed words is arithmetic on their bits. -/
theorem BinaryOp.onUnsigned_of_onSigned {op : BinaryOp} (hop : op.isModular = true) {x y : UInt64}
    {w : Int64} (h : op.onSigned x.toInt64 y.toInt64 = .ok w) :
    op.onUnsigned x y = .ok w.toUInt64 := by
  cases op <;> cases hop
  case add =>
    rw [eq_ofInt_of_exactly h, Int64.ofInt_add, Int64.ofInt_toInt, Int64.ofInt_toInt,
      Int64.toUInt64_add]
    rfl
  case sub =>
    rw [eq_ofInt_of_exactly h, Int64.ofInt_sub, Int64.ofInt_toInt, Int64.ofInt_toInt,
      Int64.toUInt64_sub]
    rfl
  case mul =>
    rw [eq_ofInt_of_exactly h, Int64.ofInt_mul, Int64.ofInt_toInt, Int64.ofInt_toInt,
      Int64.toUInt64_mul]
    rfl
  case bitAnd | bitOr | bitXor =>
    cases h
    rfl

/-- What an operator makes of constants has the word that it makes of their words. -/
theorem BinaryOp.apply_word {op : BinaryOp} (hop : op.isModular = true) (ha : a.isIntegral = true)
    (hb : b.isIntegral = true) (h : op.apply a b = .ok v) :
    v.isIntegral = true ∧ v.isUnsigned = (a.isUnsigned || b.isUnsigned) ∧
      op.onUnsigned a.wrapped b.wrapped = .ok v.wrapped := by
  have hcomparison : op.isComparison = false := by cases op <;> cases hop <;> rfl
  rw [apply, hcomparison, Constant.balance_of_isIntegral ha hb] at h
  cases hunsigned : a.isUnsigned || b.isUnsigned with
  | true =>
    rw [hunsigned] at h
    obtain ⟨w, hw, rfl⟩ := map_eq_ok.mp h
    exact ⟨rfl, rfl, hw⟩
  | false =>
    rw [hunsigned] at h
    obtain ⟨w, hw, rfl⟩ := map_eq_ok.mp h
    exact ⟨rfl, rfl, onUnsigned_of_onSigned hop hw⟩

/-- An operator on words is one on integers, taken to residues. -/
theorem UnaryOp.ofInt_onInteger {op : UnaryOp} (hop : op.isModular = true) {x y : UInt64} {n : Int}
    (hx : BitVec.ofInt 64 n = x.toBitVec) (h : op.apply (.uint x) = .ok (.uint y)) :
    BitVec.ofInt 64 (op.onInteger n) = y.toBitVec := by
  cases op <;> cases hop <;> cases h
  case plus => exact hx
  case minus => rw [onInteger, BitVec.ofInt_neg, hx, UInt64.toBitVec_neg]
  case complement => rw [onInteger, ofInt_complement, hx, UInt64.toBitVec_not]

theorem BinaryOp.ofInt_onIntegers {op : BinaryOp} (hop : op.isModular = true) {x y z : UInt64}
    {m n : Int} (hx : BitVec.ofInt 64 m = x.toBitVec) (hy : BitVec.ofInt 64 n = y.toBitVec)
    (h : op.onUnsigned x y = .ok z) :
    ∃ k, op.onIntegers some m n = some k ∧ BitVec.ofInt 64 k = z.toBitVec := by
  cases op <;> cases hop <;> cases h <;> refine ⟨_, rfl, ?_⟩
  case add => rw [BitVec.ofInt_add, hx, hy, UInt64.toBitVec_add]
  case sub =>
    rw [Int.sub_eq_add_neg, BitVec.ofInt_add, BitVec.ofInt_neg, hx, hy, ← BitVec.sub_eq_add_neg,
      UInt64.toBitVec_sub]
  case mul => rw [BitVec.ofInt_mul, hx, hy, UInt64.toBitVec_mul]
  case bitAnd => rw [ofInt_land, hx, hy, UInt64.toBitVec_and]
  case bitOr => rw [ofInt_lor, hx, hy, UInt64.toBitVec_or]
  case bitXor => rw [ofInt_xor, hx, hy, UInt64.toBitVec_xor]

/-! ### Expressions -/

variable {valueOf : SymbolId → NamedValue}

/-- The word of the value is the residue of the value over the integers. The induction follows
evaluation, through the forms of expressions that do not branch. -/
theorem ofInt_integer?_of_evaluate {e : Node} (hform : ∀ x ∈ e.nodes, x.isModular = true)
    (he : ∀ c ∈ e.constants valueOf, c.isIntegral = true) (h : e.evaluate valueOf = .ok v) :
    v.isIntegral = true ∧ v.isUnsigned = (e.constants valueOf).any (·.isUnsigned) ∧
      ∃ n, e.integer? some valueOf = some n ∧ BitVec.ofInt 64 n = v.wrapped.toBitVec := by
  fun_induction Node.evaluate valueOf e generalizing v with
  | case1 value span =>
    cases h
    rw [constants_literal] at he ⊢
    obtain ⟨n, hn, hword⟩ := exists_ofInt_eq (he value List.mem_cons_self)
    exact ⟨he value List.mem_cons_self, (Bool.or_false _).symm, n, hn, hword⟩
  | case2 inner span ih =>
    rw [nodes_paren, List.forall_mem_cons] at hform
    rw [constants_paren] at he
    exact ih hform.2 he h
  | case3 text symbol span =>
    have hread := NamedValue.constant?_of_read (mapError_eq_ok.mp h)
    rw [constants_name, hread] at he ⊢
    obtain ⟨n, hn, hword⟩ := exists_ofInt_eq (he v List.mem_cons_self)
    refine ⟨he v List.mem_cons_self, (Bool.or_false _).symm, n, ?_, hword⟩
    rw [Node.integer?, hread]
    exact hn
  | case4 text index span => cases h
  | case5 op operand span ih =>
    rw [nodes_unary, List.forall_mem_cons] at hform
    rw [constants_unary] at he ⊢
    obtain ⟨a, ha, h⟩ := bind_eq_ok.mp h
    obtain ⟨hintegral, htag, n, hn, hword⟩ := ih hform.2 he ha
    obtain ⟨hv, hsame, happly⟩ := UnaryOp.apply_word hform.1 hintegral (mapError_eq_ok.mp h)
    refine ⟨hv, hsame.trans htag, op.onInteger n, ?_, UnaryOp.ofInt_onInteger hform.1 hword happly⟩
    rw [Node.integer?, hn]
    rfl
  | case6 left right span ihl ihr | case7 left right span ihl ihr =>
    cases hform _ List.mem_cons_self
  | case8 op left right span hand hor ihl ihr =>
    rw [nodes_binary, List.forall_mem_cons, List.forall_mem_append] at hform
    rw [constants_binary] at he ⊢
    rw [List.forall_mem_append] at he
    obtain ⟨hop, hleft, hright⟩ := hform
    obtain ⟨a, ha, h⟩ := bind_eq_ok.mp h
    obtain ⟨b, hb, h⟩ := bind_eq_ok.mp h
    obtain ⟨hia, hta, m, hm, hwa⟩ := ihl hleft he.1 ha
    obtain ⟨hib, htb, n, hn, hwb⟩ := ihr hright he.2 hb
    obtain ⟨hv, hsame, happly⟩ := BinaryOp.apply_word hop hia hib (mapError_eq_ok.mp h)
    obtain ⟨k, hk, hword⟩ := BinaryOp.ofInt_onIntegers hop hwa hwb happly
    refine ⟨hv, ?_, k, ?_, hword⟩
    · rw [hsame, hta, htb, List.any_append]
    · rw [Node.integer?, hm, hn]
      · exact hk
      · exact hand
      · exact hor
  | case9 condition whenTrue whenFalse span ihc iht ihf => cases hform _ List.mem_cons_self
  | case10 => cases h

/-- A value that evaluation returns for an expression of integral constants, signs, complements,
sums, differences, products and operations on bits is congruent to the value over the integers,
and it is unsigned exactly where a constant of the expression is. -/
theorem SymbolTable.evaluate_modular (t : SymbolTable) {e : Node}
    (hform : ∀ x ∈ e.nodes, x.isModular = true)
    (he : ∀ c ∈ e.constants t.valueOf, c.isIntegral = true) {v : Constant}
    (h : t.evaluate e = .ok v) :
    (∃ m n, v.integer? = some m ∧ e.integer? some t.valueOf = some n ∧ m ≡ n [ZMOD 2 ^ 64]) ∧
      (v.isUnsigned = true ↔ ∃ c ∈ e.constants t.valueOf, c.isUnsigned = true) := by
  obtain ⟨hv, htag, n, hn, hword⟩ := ofInt_integer?_of_evaluate hform he h
  obtain ⟨m, hm, hword'⟩ := exists_ofInt_eq hv
  refine ⟨⟨m, n, hm, hn, ofInt_eq_iff.mp (hword'.trans hword.symm)⟩, ?_⟩
  rw [htag, List.any_eq_true]

/-- False minus the value of an enumerator that is one. The value is unsigned because the
enumerator is, and it is minus one up to a multiple of the size of a word. -/
theorem evaluate_modular_difference :
    let one : Symbol := { (default : Symbol) with entity := .enumerator (.uint 1) }
    let t : SymbolTable := { (default : SymbolTable) with symbols := #[one] }
    let e : Node := .binary .sub (.literal (.bool false) default) (.name "one" ⟨0⟩ default) default
    let v : Constant := .uint 18446744073709551615
    (∀ x ∈ e.nodes, x.isModular = true) ∧ (∀ c ∈ e.constants t.valueOf, c.isIntegral = true) ∧
      t.evaluate e = .ok v ∧ e.integer? some t.valueOf = some (-1) ∧
      (∃ m n, v.integer? = some m ∧ e.integer? some t.valueOf = some n ∧ m ≡ n [ZMOD 2 ^ 64]) ∧
      (v.isUnsigned = true ↔ ∃ c ∈ e.constants t.valueOf, c.isUnsigned = true) :=
  ⟨by decide, by decide, by decide, by decide,
    SymbolTable.evaluate_modular _ (by decide) (by decide) (by decide)⟩

end TemplateAnalysis
