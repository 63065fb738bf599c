/-!
# Hexadecimal text

Words are written with all their digits, code points with as few as possible.
Letters are small.
-/

namespace TemplateAnalysis.Hexadecimal

/-- The digits of a number without leading zeros; zero is one digit. -/
def number (n : Nat) : String := String.ofList (Nat.toDigits 16 n)

def word (w : UInt64) : String :=
  let digits := Nat.toDigits 16 w.toNat
  String.ofList (List.replicate (16 - digits.length) '0' ++ digits)

end TemplateAnalysis.Hexadecimal
