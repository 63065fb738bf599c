import TemplateAnalysis.Constant.Basic

/-!
# Numerals

Words read from their digits. A decimal numeral may have a sign, `-` only where
the word has one; there are no blanks and no separators.
-/

namespace TemplateAnalysis.Numeral

def digit? (base : Nat) (c : Char) : Option Nat :=
  let value :=
    if c.isDigit then c.toNat - '0'.toNat
    else if c.isLower then c.toNat - 'a'.toNat + 10
    else if c.isUpper then c.toNat - 'A'.toNat + 10
    else base
  if value < base then some value else none

/-- The number of a sequence of digits, which is not empty. -/
def natural? (base : Nat) : List Char → Option Nat
  | [] => none
  | cs => do return (← cs.mapM (digit? base)).foldl (fun n d => base * n + d) 0

def int64? (text : String) : Option Int64 := do
  let n ← match text.toList with
    | '-' :: cs => (natural? 10 cs).map fun n => -(n : Int)
    | '+' :: cs => (natural? 10 cs).map Int.ofNat
    | cs => (natural? 10 cs).map Int.ofNat
  signedWord? n

def uint64? (text : String) : Option UInt64 := do
  let n ← match text.toList with
    | '+' :: cs => natural? 10 cs
    | cs => natural? 10 cs
  unsignedWord? n

def hexadecimal? (text : String) : Option UInt64 := do
  unsignedWord? (← natural? 16 text.toList)

end TemplateAnalysis.Numeral
