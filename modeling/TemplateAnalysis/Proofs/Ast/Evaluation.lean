import TemplateAnalysis.Ast.Substitution
import TemplateAnalysis.Proofs.Diagnostic

/-!
# Evaluation under arguments

The value of an expression of a template is asked for in one of two ways: the arguments are
put in the place of the parameters, and the tree without parameters is evaluated, or the tree
is evaluated as it stands, and a parameter has the value of its argument. Substitution goes
through the whole tree, while evaluation skips the operands that do not matter. Where
substitution succeeds, the two ways give the same value.
-/

namespace TemplateAnalysis

/-! ### The value of an expression with parameters -/

def Arguments.constant? (args : Arguments) (index : Nat) : Option Constant :=
  args[index]?.bind (·.value?)

/-- The value of an expression in which a parameter stands for the constant that is bound to
it, if one is. -/
def Node.evaluateUnder (valueOf : SymbolId → NamedValue) (args : Arguments) :
    Node → Except Diagnostic Constant
  | .literal value _ => .ok value
  | .paren inner _ => inner.evaluateUnder valueOf args
  | .name text symbol span => notConstantAt span ((valueOf symbol).read text)
  | .valueParameter text index span =>
    match args.constant? index with
    | some value => .ok value
    | none => .error (.notConstant span (.valueDependent text))
  | .unary op operand span => do
    notConstantAt span (op.apply (← operand.evaluateUnder valueOf args))
  | .binary .and left right _ => do
    if (← left.evaluateUnder valueOf args).isTruthy then
      return .bool (← right.evaluateUnder valueOf args).isTruthy
    else return .bool false
  | .binary .or left right _ => do
    if (← left.evaluateUnder valueOf args).isTruthy then return .bool true
    else return .bool (← right.evaluateUnder valueOf args).isTruthy
  | .binary op left right span => do
    let a ← left.evaluateUnder valueOf args
    let b ← right.evaluateUnder valueOf args
    notConstantAt span (op.apply a b)
  | .conditional condition whenTrue whenFalse _ => do
    if (← condition.evaluateUnder valueOf args).isTruthy then
      whenTrue.evaluateUnder valueOf args
    else whenFalse.evaluateUnder valueOf args
  | node => .error (.notConstant node.span (.notAnExpression node.description))

variable {valueOf : SymbolId → NamedValue} {args : Arguments}

/-- Without arguments no parameter has a value, and evaluation is what it is elsewhere. -/
theorem Node.evaluateUnder_nil (node : Node) :
    node.evaluateUnder valueOf [] = node.evaluate valueOf := by
  fun_induction Node.evaluate valueOf node <;> simp_all [Node.evaluateUnder, Arguments.constant?]

/-- What takes the place of a parameter is the constant that is bound to it. -/
theorem substitute_valueParameter {text : String} {index : Nat} {span : Span} {r : Node}
    (h : (Node.valueParameter text index span).substitute args = .ok r) :
    ∃ value, args.constant? index = some value ∧ r = .literal value span := by
  rw [Node.substitute] at h
  obtain ⟨argument, hargument, h⟩ := bind_eq_ok.mp h
  unfold Arguments.lookup at hargument
  split at hargument
  · next bound hbound =>
    cases hargument
    split at h
    · next value =>
      have hvalue : args.constant? index = some value := by
        simp [Arguments.constant?, hbound, TemplateArgument.value?]
      exact ⟨value, hvalue, by simpa using h.symm⟩
    · cases h
    · cases h
  · cases hargument

theorem substitute_binary {op : BinaryOp} {left right : Node} {span : Span} {r : Node}
    (h : (Node.binary op left right span).substitute args = .ok r) :
    ∃ left' right', left.substitute args = .ok left' ∧ right.substitute args = .ok right' ∧
      r = .binary op left' right' span := by
  simp only [Node.substitute, bind_eq_ok, pure_eq_ok] at h
  obtain ⟨left', hleft, right', hright, rfl⟩ := h
  exact ⟨left', right', hleft, hright, rfl⟩

def Node.isExpressionForm : Node → Bool
  | literal _ _ | name _ _ _ | valueParameter _ _ _ | unary _ _ _ | binary _ _ _ _
  | conditional _ _ _ _ | paren _ _ => true
  | _ => false

theorem evaluate_of_isExpressionForm {node : Node} (h : node.isExpressionForm = false) :
    node.evaluate valueOf =
      .error (.notConstant node.span (.notAnExpression node.description)) := by
  cases node <;> first | rfl | cases h

theorem isExpressionForm_substitute {e r : Node} (h : e.substitute args = .ok r) :
    r.isExpressionForm = e.isExpressionForm := by
  cases e with
  | typeParameter text index span =>
    rw [Node.substitute] at h
    obtain ⟨argument, -, h⟩ := bind_eq_ok.mp h
    cases argument <;> simp at h
    subst h
    rfl
  | valueParameter text index span =>
    obtain ⟨value, -, rfl⟩ := substitute_valueParameter h
    rfl
  | packExpansion pattern span => cases h
  | _ =>
    simp only [Node.substitute, bind_eq_ok, pure_eq_ok, Except.ok.injEq] at h
    grind [Node.isExpressionForm]

/-- Evaluation after substitution agrees with evaluation under the arguments. The induction
follows evaluation; substitution has the tree of every operand ready, also of those that are
not looked at. -/
theorem agree_of_substitute {e r : Node} (h : e.substitute args = .ok r) :
    Agree (r.evaluate valueOf) (e.evaluateUnder valueOf args) := by
  fun_induction Node.evaluateUnder valueOf args e generalizing r with
  | case1 value span =>
    simp only [Node.substitute, Except.ok.injEq] at h
    subst h
    exact Agree.refl _
  | case2 inner span ih =>
    simp only [Node.substitute, bind_eq_ok, pure_eq_ok] at h
    obtain ⟨inner', hinner, rfl⟩ := h
    rw [Node.evaluate]
    exact ih hinner
  | case3 text symbol span =>
    simp only [Node.substitute, Except.ok.injEq] at h
    subst h
    exact Agree.refl _
  | case4 text index span value hvalue =>
    obtain ⟨bound, hbound, rfl⟩ := substitute_valueParameter h
    rw [hvalue, Option.some_inj] at hbound
    subst hbound
    exact Agree.refl _
  | case5 text index span hvalue =>
    obtain ⟨bound, hbound, -⟩ := substitute_valueParameter h
    rw [hvalue] at hbound
    contradiction
  | case6 op operand span ih =>
    simp only [Node.substitute, bind_eq_ok, pure_eq_ok] at h
    obtain ⟨operand', hoperand, rfl⟩ := h
    apply (ih hoperand).bind
    intro a
    exact Agree.refl _
  | case7 left right span ihl ihr =>
    obtain ⟨left', right', hleft, hright, rfl⟩ := substitute_binary h
    apply (ihl hleft).bind
    intro a
    apply Agree.ite
    · intro _
      exact (ihr hright).bind fun b => Agree.refl _
    · intro _
      exact Agree.refl _
  | case8 left right span ihl ihr =>
    obtain ⟨left', right', hleft, hright, rfl⟩ := substitute_binary h
    apply (ihl hleft).bind
    intro a
    apply Agree.ite
    · intro _
      exact Agree.refl _
    · intro _
      exact (ihr hright).bind fun b => Agree.refl _
  | case9 op left right span hand hor ihl ihr =>
    obtain ⟨left', right', hleft, hright, rfl⟩ := substitute_binary h
    rw [Node.evaluate]
    · apply (ihl hleft).bind
      intro a
      apply (ihr hright).bind
      intro b
      exact Agree.refl _
    · exact hand
    · exact hor
  | case10 condition whenTrue whenFalse span ihc iht ihf =>
    simp only [Node.substitute, bind_eq_ok, pure_eq_ok] at h
    obtain ⟨condition', hcondition, whenTrue', htrue, whenFalse', hfalse, rfl⟩ := h
    apply (ihc hcondition).bind
    intro a
    apply Agree.ite
    · intro _
      exact iht htrue
    · intro _
      exact ihf hfalse
  | case11 node h₁ h₂ h₃ h₄ h₅ h₆ h₇ h₈ h₉ =>
    have hform : node.isExpressionForm = false := by
      cases node <;> first | rfl | grind
    rw [evaluate_of_isExpressionForm ((isExpressionForm_substitute h).trans hform)]
    exact Agree.errors _ _

/-- Where substitution succeeds, the value of the new tree is the value of the old one under
the arguments, and one of them is constant if the other is. What substitution requires of an
operand, it requires of every operand; that an operand is constant is required by neither side
unless its value matters. -/
theorem SymbolTable.evaluate_substitute (t : SymbolTable) (args : Arguments) {e r : Node}
    (h : e.substitute args = .ok r) :
    ∀ v, t.evaluate r = .ok v ↔ e.evaluateUnder t.valueOf args = .ok v :=
  agree_of_substitute h

/-- The right operand divides by zero, which does not matter where the parameter is true. -/
theorem evaluate_substitute_shortCircuit :
    let e : Node := .binary .or (.valueParameter "N" 0 default)
      (.binary .div (.literal (.int 1) default) (.literal (.int 0) default) default) default
    let args : Arguments := [.value (.bool true)]
    ∃ r, e.substitute args = .ok r ∧
      (∀ v, SymbolTable.evaluate default r = .ok v ↔
        e.evaluateUnder (SymbolTable.valueOf default) args = .ok v) ∧
      SymbolTable.evaluate default r = .ok (.bool true) :=
  ⟨_, rfl, SymbolTable.evaluate_substitute default [.value (.bool true)] rfl, rfl⟩

end TemplateAnalysis
