import TemplateAnalysis.Constant.Fault

/-!
# Conversion to a declared type

A constant takes the sort of the type that receives it. A truth value is taken
of anything, a floating type takes the nearest number, and an integral type
takes exactly the integers of its range.
-/

namespace TemplateAnalysis

/-- Why a type does not receive a constant. -/
inductive ConversionFault where
  /-- Nothing has type `void`. -/
  | void
  | constant (fault : ConstantFault)
deriving DecidableEq, Repr

namespace Constant

/-- The constant of an integer in the sort of an integral type, if the integer is
in the type's range. -/
def ofInteger? (target : Primitive) (n : Int) : Option Constant :=
  match target.range? with
  | none => Option.none
  | some (least, greatest) =>
    if least ≤ n ∧ n ≤ greatest then
      if target.isUnsigned then (unsignedWord? n).map uint else (signedWord? n).map int
    else Option.none

/-- The constant as a value of a fundamental type. -/
def convert (c : Constant) (target : Primitive) : Except ConversionFault Constant :=
  match target with
  | .void => .error .void
  | .bool => .ok (bool c.isTruthy)
  | .float | .double | .longDouble => .ok (float c.toBinary64)
  | _ =>
    match c.integer? with
    | none => .error (.constant (.notIntegral c))
    | some n =>
      match ofInteger? target n with
      | some w => .ok w
      | none => .error (.constant (.outOfRange c target))

def successor (c : Constant) : Except ConstantFault Constant :=
  match c with
  | int v =>
    match signedWord? (v.toInt + 1) with
    | some w => .ok (int w)
    | none => .error .enumeratorOverflow
  | uint v =>
    match unsignedWord? (v.toNat + 1) with
    | some w => .ok (uint w)
    | none => .error .enumeratorOverflow
  | bool b => .ok (int (b.toInt64 + 1))
  | float _ => .error .enumeratorOverflow

end Constant

end TemplateAnalysis
