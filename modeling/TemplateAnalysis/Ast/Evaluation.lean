import TemplateAnalysis.Ast.Basic
import TemplateAnalysis.Constant.Arithmetic
import TemplateAnalysis.Diagnostic

/-!
# Evaluation of expressions

The value of an expression, given what the names in it stand for. A logical
operator leaves its right operand unevaluated when the left one decides, and a
conditional evaluates only the branch it takes. What depends on a template
parameter is not constant.
-/

namespace TemplateAnalysis

/-- What a name stands for in an expression. -/
inductive NamedValue where
  | known (value : Constant)
  /-- An object without a recorded value. -/
  | unknown
  /-- A template parameter. -/
  | dependent
  /-- Something that has no value. -/
  | noValue
deriving DecidableEq, Inhabited

def NamedValue.read (value : NamedValue) (text : String) : Except ConstantFault Constant :=
  match value with
  | known value => .ok value
  | unknown => .error (.unknownValue text)
  | dependent => .error (.valueDependent text)
  | noValue => .error (.noValue text)

def notConstantAt (span : Span) {α : Type} (result : Except ConstantFault α) :
    Except Diagnostic α :=
  result.mapError (Diagnostic.notConstant span)

/-- The value of an expression. -/
def Node.evaluate (valueOf : SymbolId → NamedValue) : Node → Except Diagnostic Constant
  | .literal value _ => .ok value
  | .paren inner _ => inner.evaluate valueOf
  | .name text symbol span => notConstantAt span ((valueOf symbol).read text)
  | .valueParameter text _ span => .error (.notConstant span (.valueDependent text))
  | .unary op operand span => do notConstantAt span (op.apply (← operand.evaluate valueOf))
  | .binary .and left right _ => do
    if (← left.evaluate valueOf).isTruthy then
      return .bool (← right.evaluate valueOf).isTruthy
    else return .bool false
  | .binary .or left right _ => do
    if (← left.evaluate valueOf).isTruthy then return .bool true
    else return .bool (← right.evaluate valueOf).isTruthy
  | .binary op left right span => do
    let a ← left.evaluate valueOf
    let b ← right.evaluate valueOf
    notConstantAt span (op.apply a b)
  | .conditional condition whenTrue whenFalse _ => do
    if (← condition.evaluate valueOf).isTruthy then whenTrue.evaluate valueOf
    else whenFalse.evaluate valueOf
  | node => .error (.notConstant node.span (.notAnExpression node.description))

end TemplateAnalysis
