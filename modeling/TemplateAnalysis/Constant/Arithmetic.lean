import TemplateAnalysis.Constant.Fault
import TemplateAnalysis.Operator

/-!
# Arithmetic on constants

An operation is done on numbers of one sort: floating if an operand is floating,
else unsigned if an operand is unsigned, else signed. Truth values count as
signed. Unsigned arithmetic wraps. Signed sums, differences, products and
quotients are exact or refused; a left shift drops the bits that leave the word.
-/

namespace TemplateAnalysis

/-- Two operands brought to one sort. -/
inductive Operands where
  | signed (a b : Int64)
  | unsigned (a b : UInt64)
  | floating (a b : Binary64)
deriving DecidableEq, Repr

namespace Constant

/-- The word of an integral constant; the value of a signed one wraps. -/
def wrapped : Constant → UInt64
  | int v => v.toUInt64
  | uint v => v
  | bool b => b.toUInt64
  | float _ => 0

def balance : Constant → Constant → Operands
  | float a, b => .floating a b.toBinary64
  | a, float b => .floating a.toBinary64 b
  | uint a, b => .unsigned a b.wrapped
  | a, uint b => .unsigned a.wrapped b
  | a, b => .signed a.wrapped.toInt64 b.wrapped.toInt64

end Constant

def shiftPlaces? (count : Int64) : Except ConstantFault Nat :=
  if 0 ≤ count.toInt ∧ count.toInt < 64 then .ok count.toInt.toNat
  else .error (.shiftCount count.toInt)

/-- A signed word, if the exact result fits one. -/
def exactly (n : Int) : Except ConstantFault Int64 :=
  match signedWord? n with
  | some w => .ok w
  | none => .error .overflow

namespace BinaryOp

/-- Signed arithmetic. A remainder is refused together with its quotient. -/
def onSigned (op : BinaryOp) (a b : Int64) : Except ConstantFault Int64 :=
  match op with
  | add => exactly (a.toInt + b.toInt)
  | sub => exactly (a.toInt - b.toInt)
  | mul => exactly (a.toInt * b.toInt)
  | div => if b = 0 then .error .divisionByZero else exactly (a.toInt.tdiv b.toInt)
  | rem =>
    if b = 0 then .error .divisionByZero
    else do
      let _ ← exactly (a.toInt.tdiv b.toInt)
      exactly (a.toInt.tmod b.toInt)
  | shiftLeft => return a <<< Int64.ofNat (← shiftPlaces? b)
  | shiftRight => return a >>> Int64.ofNat (← shiftPlaces? b)
  | bitAnd => .ok (a &&& b)
  | bitOr => .ok (a ||| b)
  | bitXor => .ok (a ^^^ b)
  | _ => .error (.invalidOperands op.text)

/-- Unsigned arithmetic. A shift count is read as a signed word. -/
def onUnsigned (op : BinaryOp) (a b : UInt64) : Except ConstantFault UInt64 :=
  match op with
  | add => .ok (a + b)
  | sub => .ok (a - b)
  | mul => .ok (a * b)
  | div => if b = 0 then .error .divisionByZero else .ok (a / b)
  | rem => if b = 0 then .error .divisionByZero else .ok (a % b)
  | shiftLeft => return a <<< UInt64.ofNat (← shiftPlaces? b.toInt64)
  | shiftRight => return a >>> UInt64.ofNat (← shiftPlaces? b.toInt64)
  | bitAnd => .ok (a &&& b)
  | bitOr => .ok (a ||| b)
  | bitXor => .ok (a ^^^ b)
  | _ => .error (.invalidOperands op.text)

/-- Floating arithmetic. Only a division by a zero is refused. -/
def onFloating (op : BinaryOp) (a b : Binary64) : Except ConstantFault Binary64 :=
  match op with
  | add => .ok (a.add b)
  | sub => .ok (a.sub b)
  | mul => .ok (a.mul b)
  | div => if b.isZero then .error .divisionByZero else .ok (a.div b)
  | _ => .error (.invalidOperands op.text)

/-- The truth of a comparison, from the order of its operands. Operands without
an order are unequal and nothing else. -/
def holds (op : BinaryOp) (order : Option Ordering) : Bool :=
  match order with
  | none => op = ne
  | some order =>
    match op with
    | eq => order.isEq
    | ne => order.isNe
    | lt => order.isLT
    | le => order.isLE
    | gt => order.isGT
    | _ => order.isGE

end BinaryOp

def Operands.order? : Operands → Option Ordering
  | signed a b => some (compare a.toInt b.toInt)
  | unsigned a b => some (compare a.toNat b.toNat)
  | floating a b => a.compare? b

def BinaryOp.apply (op : BinaryOp) (left right : Constant) : Except ConstantFault Constant :=
  let operands := left.balance right
  if op.isComparison then .ok (.bool (op.holds operands.order?))
  else match operands with
    | .signed a b => (op.onSigned a b).map .int
    | .unsigned a b => (op.onUnsigned a b).map .uint
    | .floating a b => (op.onFloating a b).map .float

/-- The value of an operator before its operand. Truth values become signed. -/
def UnaryOp.apply (op : UnaryOp) (operand : Constant) : Except ConstantFault Constant :=
  match op, operand with
  | not, c => .ok (.bool !c.isTruthy)
  | plus, .bool b => .ok (.int b.toInt64)
  | plus, c => .ok c
  | minus, .int v => (exactly (-v.toInt)).map .int
  | minus, .uint v => .ok (.uint (-v))
  | minus, .bool b => .ok (.int (-b.toInt64))
  | minus, .float v => .ok (.float v.neg)
  | complement, .int v => .ok (.int (~~~v))
  | complement, .uint v => .ok (.uint (~~~v))
  | complement, .bool b => .ok (.int (~~~b.toInt64))
  | complement, .float _ => .error (.invalidOperands op.text)

end TemplateAnalysis
