import TemplateAnalysis.Binary64

/-!
# Constants

The value of a constant expression is a signed word, an unsigned word, a
binary64 number or a truth value. `integer?` is the common view of the integral
constants; the narrower views ask that the integer fits.
-/

namespace TemplateAnalysis

/-- The value of a constant expression. -/
inductive Constant where
  | int (value : Int64)
  | uint (value : UInt64)
  | float (value : Binary64)
  | bool (value : Bool)
deriving DecidableEq, Inhabited, Repr

def signedWord? (n : Int) : Option Int64 :=
  if Int64.minValue.toInt ≤ n ∧ n ≤ Int64.maxValue.toInt then some (Int64.ofInt n) else none

def unsignedWord? (n : Int) : Option UInt64 :=
  if 0 ≤ n ∧ n < UInt64.size then some (UInt64.ofNat n.toNat) else none

namespace Constant

/-- The integer of an integral constant; truth values count as zero and one. -/
def integer? : Constant → Option Int
  | int v => some v.toInt
  | uint v => some v.toNat
  | bool b => some b.toNat
  | float _ => none

def int64? (c : Constant) : Option Int64 := c.integer?.bind signedWord?

def uint64? (c : Constant) : Option UInt64 := c.integer?.bind unsignedWord?

def toBinary64 : Constant → Binary64
  | int v => .ofInt64 v
  | uint v => .ofUInt64 v
  | bool b => .ofUInt64 b.toUInt64
  | float v => v

def isTruthy : Constant → Bool
  | int v => v != 0
  | uint v => v != 0
  | bool b => b
  | float v => !v.isZero

def isIntegral : Constant → Bool
  | float _ => false
  | _ => true

/-- Constants are the same when they are of one sort and have the same value;
floating values compare by `Binary64.same`. -/
def same : Constant → Constant → Bool
  | int a, int b => a == b
  | uint a, uint b => a == b
  | float a, float b => a.same b
  | bool a, bool b => a == b
  | _, _ => false

theorem same_refl (c : Constant) : c.same c = true := by
  cases c <;> simp [same, Binary64.same_refl]

theorem integer?_isSome (c : Constant) : c.integer?.isSome = c.isIntegral := by
  cases c <;> rfl

/-- The encoding inside internal names: the sort, the value, and for a negative
integer its absolute value behind `n`. -/
def encoding : Constant → String
  | int v =>
    if v.toInt < 0 then "Lin" ++ toString v.toInt.natAbs ++ "E"
    else "Li" ++ toString v.toInt.natAbs ++ "E"
  | uint v => "Lj" ++ toString v.toNat ++ "E"
  | bool b => "Lb" ++ (if b then "1" else "0") ++ "E"
  | float v => "Ld" ++ v.hex ++ "E"

def text : Constant → String
  | int v => toString v.toInt
  | uint v => toString v.toNat ++ "u"
  | bool b => if b then "true" else "false"
  | float v => v.text

end Constant

end TemplateAnalysis
