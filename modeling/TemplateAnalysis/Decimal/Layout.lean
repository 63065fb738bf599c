import TemplateAnalysis.Decimal.Shortest

/-!
# Layout of a decimal

Where the point goes and when an exponent is written instead. A layout is a
record of these choices; `Layout.text` applies it to a positive decimal.
-/

namespace TemplateAnalysis.Decimal

structure Layout where
  /-- The least exponent of the first digit that is written with a point only. -/
  leastPositional : Int
  /-- The first exponent of the first digit that is written as an exponent. -/
  leastScientific : Int

def zeros (n : Nat) : String := String.ofList (List.replicate n '0')

/-- The digits of a number without its trailing zeros, most significant first. -/
def significantDigits (n : Nat) : List Char :=
  ((Nat.toDigits 10 n).reverse.dropWhile (· == '0')).reverse

/-- The digits with a point behind the first `point` of them, padded by zeros, at
least one digit on either side. -/
def positional (digits : List Char) (point : Int) : String :=
  if point ≤ 0 then "0." ++ zeros (-point).toNat ++ String.ofList digits
  else if digits.length ≤ point.toNat then
    String.ofList digits ++ zeros (point.toNat - digits.length) ++ ".0"
  else String.ofList (digits.take point.toNat) ++ "." ++ String.ofList (digits.drop point.toNat)

/-- The digits with a point behind the first, if there are more, and an exponent. -/
def scientific (digits : List Char) (exponent : Int) : String :=
  match digits with
  | [] => "0"
  | [d] => d.toString ++ "e" ++ toString exponent
  | d :: rest => d.toString ++ "." ++ String.ofList rest ++ "e" ++ toString exponent

def Layout.text (layout : Layout) (x : Scaled) : String :=
  let digits := significantDigits x.digits
  let point := x.exponent + (Nat.toDigits 10 x.digits).length
  if layout.leastPositional ≤ point - 1 ∧ point - 1 < layout.leastScientific then
    positional digits point
  else scientific digits (point - 1)

end TemplateAnalysis.Decimal
