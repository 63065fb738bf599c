import TemplateAnalysis.Decimal.Layout
import TemplateAnalysis.Hexadecimal

/-!
# Binary64 numbers

A floating constant is the word of bits of its IEEE 754 binary64 encoding, so
that equal constants have equal encodings and every bit can be spelled. Equality
`same` is total: all NaNs are one value, and the two zeros are one value.
Arithmetic rounds to nearest. An operand that is a NaN is passed on with its
quiet bit set, the left one first; an invalid operation gives `invalid`.
-/

namespace TemplateAnalysis

/-- A number of the binary64 format, as its encoding. -/
structure Binary64 where
  bits : UInt64
deriving DecidableEq, Inhabited, Repr

namespace Binary64

def fraction (x : Binary64) : UInt64 := x.bits &&& 0x000fffffffffffff

def biasedExponent (x : Binary64) : UInt64 := (x.bits >>> 52) &&& 0x7ff

def magnitude (x : Binary64) : UInt64 := x.bits &&& 0x7fffffffffffffff

def isNegative (x : Binary64) : Bool := x.bits >>> 63 == 1

def isZero (x : Binary64) : Bool := x.magnitude == 0

/-- Encodings above infinity's are not numbers. -/
def isNaN (x : Binary64) : Bool := x.magnitude > 0x7ff0000000000000

def isInfinite (x : Binary64) : Bool := x.magnitude == 0x7ff0000000000000

/-- Total equality: NaNs are equal, and so are the zeros. -/
def same (x y : Binary64) : Bool :=
  x.bits == y.bits || (x.isNaN && y.isNaN) || (x.isZero && y.isZero)

theorem same_refl (x : Binary64) : x.same x = true := by simp [same]

def invalid : Binary64 := ⟨0xfff8000000000000⟩

/-- The NaN that constants spell. -/
def nan : Binary64 := ⟨0x7ff8000000000000⟩

def ofFloat (x : Float) : Binary64 := if x.isNaN then invalid else ⟨x.toBits⟩

def toFloat (x : Binary64) : Float := Float.ofBits x.bits

def ofInt64 (x : Int64) : Binary64 := ofFloat x.toFloat

def ofUInt64 (x : UInt64) : Binary64 := ofFloat x.toFloat

/-- A NaN with its quiet bit set. -/
def quiet (x : Binary64) : Binary64 := ⟨x.bits ||| 0x0008000000000000⟩

/-- An operation of the machine, with the operands that are no numbers passed on. -/
def lift (op : Float → Float → Float) (x y : Binary64) : Binary64 :=
  if x.isNaN then x.quiet
  else if y.isNaN then y.quiet
  else ofFloat (op x.toFloat y.toFloat)

def add : Binary64 → Binary64 → Binary64 := lift (· + ·)

def sub : Binary64 → Binary64 → Binary64 := lift (· - ·)

def mul : Binary64 → Binary64 → Binary64 := lift (· * ·)

def div : Binary64 → Binary64 → Binary64 := lift (· / ·)

def neg (x : Binary64) : Binary64 := ⟨x.bits ^^^ 0x8000000000000000⟩

/-- The place of a number that is not a NaN on the line of encodings; both zeros
stand at zero. -/
def rank (x : Binary64) : Int :=
  if x.isNegative then -x.magnitude.toNat else x.magnitude.toNat

/-- The order of two numbers; a NaN has none. -/
def compare? (x y : Binary64) : Option Ordering :=
  if x.isNaN || y.isNaN then none else some (compare x.rank y.rank)

/-- The significand of a finite number: its value is the significand times
`2 ^ scale`. -/
def significand (x : Binary64) : Nat :=
  if x.biasedExponent = 0 then x.fraction.toNat else x.fraction.toNat + (1 <<< 52)

def scale (x : Binary64) : Int :=
  if x.biasedExponent = 0 then -1074 else x.biasedExponent.toNat - 1075

/-- Floating constants are written with a point while the first digit is between
the fourth place behind the point and the sixteenth before it. -/
def layout : Decimal.Layout := ⟨-4, 16⟩

/-- The shortest text that reads back as the number. -/
def text (x : Binary64) : String :=
  if x.isNaN then "NaN"
  else
    let sign := if x.isNegative then "-" else ""
    if x.isInfinite then sign ++ "inf"
    else if x.isZero then sign ++ "0.0"
    else
      let narrow := x.fraction == 0 && x.biasedExponent > 1
      sign ++ layout.text (Decimal.shortest x.significand x.scale narrow)

def hex (x : Binary64) : String := Hexadecimal.word x.bits

end Binary64

end TemplateAnalysis
