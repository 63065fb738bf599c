import TemplateAnalysis.Proofs.Ast.Evaluation
import TemplateAnalysis.Proofs.Ast.Nodes
import TemplateAnalysis.Proofs.Constant.Words

/-!
# Values over the integers

An expression has a value over unbounded integers, where nothing overflows and a negative
integer has infinitely many leading ones; only a quotient by zero and a shift by a negative
number of places have no value. Operands are looked at as in evaluation.

A left shift is the one operation of signed words that may leave bits out, so what it makes of
its exact result is left to a rule. One rule keeps the low bits of a word, one refuses what
does not fit a word, and one takes everything.
-/

namespace TemplateAnalysis

def UnaryOp.onInteger : UnaryOp → Int → Int
  | plus, n => n
  | minus, n => -n
  | not, n => (decide (n = 0)).toNat
  | complement, n => -n - 1

/-- An operator that evaluates both operands, over the integers. A left shift has what `fit`
makes of its exact result. -/
def BinaryOp.onIntegers (fit : Int → Option Int) : BinaryOp → Int → Int → Option Int
  | add, m, n => some (m + n)
  | sub, m, n => some (m - n)
  | mul, m, n => some (m * n)
  | div, m, n => if n = 0 then none else some (m.tdiv n)
  | rem, m, n => if n = 0 then none else some (m.tmod n)
  | shiftLeft, m, n => if n < 0 then none else fit (m * 2 ^ n.toNat)
  | shiftRight, m, n => if n < 0 then none else some (m.fdiv (2 ^ n.toNat))
  | bitAnd, m, n => some (m.land n)
  | bitOr, m, n => some (m.lor n)
  | bitXor, m, n => some (m.xor n)
  | eq, m, n => some (decide (m = n)).toNat
  | ne, m, n => some (decide (m ≠ n)).toNat
  | lt, m, n => some (decide (m < n)).toNat
  | le, m, n => some (decide (m ≤ n)).toNat
  | gt, m, n => some (decide (m > n)).toNat
  | ge, m, n => some (decide (m ≥ n)).toNat
  | and, _, _ | or, _, _ => none

/-- What a word keeps of an integer: the signed word that has the low bits. -/
def keepLowBits (n : Int) : Option Int := some (n.bmod (2 ^ 64))

def onlySignedWords (n : Int) : Option Int := if IsSignedWord n then some n else none

def NamedValue.constant? : NamedValue → Option Constant
  | known value => some value
  | _ => none

namespace Node

def constant? (valueOf : SymbolId → NamedValue) : Node → Option Constant
  | literal value _ => some value
  | name _ symbol _ => (valueOf symbol).constant?
  | _ => none

/-- The constants that literals and names stand for anywhere in an expression. -/
def constants (valueOf : SymbolId → NamedValue) (e : Node) : List Constant :=
  e.nodes.filterMap (constant? valueOf)

/-- The value of an expression over the integers, where a left shift has what `fit` makes of
its exact result. -/
def integer? (fit : Int → Option Int) (valueOf : SymbolId → NamedValue) : Node → Option Int
  | literal value _ => value.integer?
  | name _ symbol _ => (valueOf symbol).constant?.bind (·.integer?)
  | paren inner _ => inner.integer? fit valueOf
  | unary op operand _ => do return op.onInteger (← operand.integer? fit valueOf)
  | binary .and left right _ => do
    if (← left.integer? fit valueOf) = 0 then return 0
    else return (decide ((← right.integer? fit valueOf) ≠ 0)).toNat
  | binary .or left right _ => do
    if (← left.integer? fit valueOf) = 0 then
      return (decide ((← right.integer? fit valueOf) ≠ 0)).toNat
    else return 1
  | binary op left right _ => do
    op.onIntegers fit (← left.integer? fit valueOf) (← right.integer? fit valueOf)
  | conditional condition whenTrue whenFalse _ => do
    if (← condition.integer? fit valueOf) = 0 then whenFalse.integer? fit valueOf
    else whenTrue.integer? fit valueOf
  | _ => none

end Node

/-! ### The constants of an expression -/

theorem NamedValue.constant?_of_read {value : NamedValue} {text : String} {c : Constant}
    (h : value.read text = .ok c) : value.constant? = some c := by
  cases value <;> cases h
  rfl

theorem nodes_paren (inner : Node) (span : Span) :
    (Node.paren inner span).nodes = .paren inner span :: inner.nodes := rfl

theorem nodes_unary (op : UnaryOp) (operand : Node) (span : Span) :
    (Node.unary op operand span).nodes = .unary op operand span :: operand.nodes := rfl

theorem nodes_binary (op : BinaryOp) (left right : Node) (span : Span) :
    (Node.binary op left right span).nodes =
      .binary op left right span :: (left.nodes ++ right.nodes) := rfl

theorem nodes_conditional (condition whenTrue whenFalse : Node) (span : Span) :
    (Node.conditional condition whenTrue whenFalse span).nodes =
      .conditional condition whenTrue whenFalse span ::
        (condition.nodes ++ whenTrue.nodes ++ whenFalse.nodes) := rfl

section

variable (valueOf : SymbolId → NamedValue)

theorem constants_literal (value : Constant) (span : Span) :
    (Node.literal value span).constants valueOf = [value] := rfl

theorem constants_name (text : String) (symbol : SymbolId) (span : Span) :
    (Node.name text symbol span).constants valueOf = (valueOf symbol).constant?.toList := by
  rw [Node.constants, Node.nodes, List.filterMap_cons, Node.constant?]
  cases (valueOf symbol).constant? <;> rfl

theorem constants_paren (inner : Node) (span : Span) :
    (Node.paren inner span).constants valueOf = inner.constants valueOf := rfl

theorem constants_unary (op : UnaryOp) (operand : Node) (span : Span) :
    (Node.unary op operand span).constants valueOf = operand.constants valueOf := rfl

theorem constants_binary (op : BinaryOp) (left right : Node) (span : Span) :
    (Node.binary op left right span).constants valueOf =
      left.constants valueOf ++ right.constants valueOf := by
  rw [Node.constants, nodes_binary, List.filterMap_cons_none rfl, List.filterMap_append]
  rfl

theorem constants_conditional (condition whenTrue whenFalse : Node) (span : Span) :
    (Node.conditional condition whenTrue whenFalse span).constants valueOf =
      condition.constants valueOf ++ whenTrue.constants valueOf ++ whenFalse.constants valueOf := by
  rw [Node.constants, nodes_conditional, List.filterMap_cons_none rfl, List.filterMap_append,
    List.filterMap_append]
  rfl

end

/-! ### Rules for left shifts -/

variable {valueOf : SymbolId → NamedValue} {fit fit' : Int → Option Int}

theorem onIntegers_mono (h : ∀ m n, fit m = some n → fit' m = some n) {op : BinaryOp}
    {m n k : Int} (hk : op.onIntegers fit m n = some k) : op.onIntegers fit' m n = some k := by
  cases op with
  | shiftLeft =>
    simp only [BinaryOp.onIntegers, Option.ite_none_left_eq_some] at hk ⊢
    exact ⟨hk.1, h _ _ hk.2⟩
  | _ => exact hk

theorem bind_mono {α β : Type} {x y : Option α} {f g : α → Option β}
    (hxy : ∀ a, x = some a → y = some a) (hfg : ∀ a b, f a = some b → g a = some b) :
    ∀ b, (x >>= f) = some b → (y >>= g) = some b := by
  intro b hb
  obtain ⟨a, ha, hfa⟩ := Option.bind_eq_some_iff.mp hb
  exact Option.bind_eq_some_iff.mpr ⟨a, hxy a ha, hfg a b hfa⟩

/-- A rule that gives more has all the values that the other one has. -/
theorem integer?_mono (h : ∀ m n, fit m = some n → fit' m = some n) (e : Node) (n : Int)
    (hn : e.integer? fit valueOf = some n) : e.integer? fit' valueOf = some n := by
  fun_induction Node.integer? fit valueOf e generalizing n with
  | case1 value span | case2 text symbol span => exact hn
  | case3 inner span ih => exact ih n hn
  | case4 op operand span ih => exact bind_mono ih (fun _ _ h => h) n hn
  | case5 left right span ihl ihr =>
    refine bind_mono ihl (fun m k hk => ?_) n hn
    split at hk
    · rw [if_pos ‹_›]
      exact hk
    · rw [if_neg ‹_›]
      exact bind_mono ihr (fun _ _ h => h) k hk
  | case6 left right span ihl ihr =>
    refine bind_mono ihl (fun m k hk => ?_) n hn
    split at hk
    · rw [if_pos ‹_›]
      exact bind_mono ihr (fun _ _ h => h) k hk
    · rw [if_neg ‹_›]
      exact hk
  | case7 op left right span hand hor ihl ihr =>
    rw [Node.integer?]
    · exact bind_mono ihl (fun a => bind_mono ihr fun b k => onIntegers_mono h) n hn
    · exact hand
    · exact hor
  | case8 condition whenTrue whenFalse span ihc ihf iht =>
    refine bind_mono ihc (fun m k hk => ?_) n hn
    split at hk
    · rw [if_pos ‹_›]
      exact ihf k hk
    · rw [if_neg ‹_›]
      exact iht k hk
  | case9 => cases hn

/-- What fits a word is what the word keeps, so refusing the rest leaves only exact values. -/
theorem integer?_of_onlySignedWords {e : Node} {n : Int}
    (h : e.integer? onlySignedWords valueOf = some n) :
    e.integer? keepLowBits valueOf = some n ∧ e.integer? some valueOf = some n := by
  have hfit : ∀ m k, onlySignedWords m = some k → m = k ∧ IsSignedWord m := by
    intro m k hk
    obtain ⟨hm, hk⟩ := Option.ite_none_right_eq_some.mp hk
    exact ⟨Option.some_inj.mp hk, hm⟩
  refine ⟨integer?_mono (fun m k hk => ?_) e n h, integer?_mono (fun m k hk => ?_) e n h⟩
  · obtain ⟨rfl, hm⟩ := hfit m k hk
    have hrange := isSignedWord_iff.mp hm
    exact congrArg some (Int.bmod_eq_of_le (by omega) (by omega))
  · exact congrArg some (hfit m k hk).1

end TemplateAnalysis
