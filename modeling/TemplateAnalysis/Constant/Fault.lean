import TemplateAnalysis.Constant.Basic
import TemplateAnalysis.Primitive

/-!
# Why an expression is not constant
-/

namespace TemplateAnalysis

/-- Why an expression has no constant value, or not one that can be used where
it stands. -/
inductive ConstantFault where
  /-- The object has no recorded value. -/
  | unknownValue (name : String)
  /-- The name stands for a template parameter. -/
  | valueDependent (name : String)
  /-- The name stands for something that has no value. -/
  | noValue (name : String)
  /-- The node, here described, is not an expression. -/
  | notAnExpression (description : String)
  /-- The operator does not take operands of these sorts. -/
  | invalidOperands (operator : String)
  | overflow
  | divisionByZero
  /-- A shift by fewer than zero or more than 63 places. -/
  | shiftCount (count : Int)
  /-- An array bound that is no natural number. -/
  | arrayBound (value : Constant)
  /-- An integer outside the range of the type that receives it. -/
  | outOfRange (value : Constant) (target : Primitive)
  /-- A floating value for an integral type. -/
  | notIntegral (value : Constant)
  /-- A floating value for an enumerator. -/
  | enumeratorNotIntegral (value : Constant)
  /-- There is no next enumerator value. -/
  | enumeratorOverflow
  /-- A reason in the words of the caller. -/
  | worded (reason : String)
deriving DecidableEq, Repr

def ConstantFault.text : ConstantFault → String
  | unknownValue name => s!"'{name}' is not a constant"
  | valueDependent name => s!"'{name}' is value-dependent"
  | noValue name => s!"'{name}' does not name a value"
  | notAnExpression description => s!"a {description} is not an expression"
  | invalidOperands operator => s!"invalid operands to '{operator}'"
  | overflow => "arithmetic overflow"
  | divisionByZero => "division by zero"
  | shiftCount count => s!"shift count {count} is out of range"
  | arrayBound value => s!"array bound {value.text} is not a non-negative integer"
  | outOfRange value target => s!"{value.text} does not fit in '{target.name}'"
  | notIntegral value => s!"{value.text} is not an integral constant"
  | enumeratorNotIntegral value => s!"enumerator value {value.text} is not integral"
  | enumeratorOverflow => "enumerator value overflows"
  | worded reason => reason

end TemplateAnalysis
