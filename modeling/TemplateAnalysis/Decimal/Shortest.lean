/-!
# Shortest decimals

A positive binary number `m * 2 ^ q` stands for every real that rounds to it.
`shortest` finds the coarsest decimal grid `10 ^ e` with a point among those
reals, and of the two grid points around the number the nearer one that lies
among them. The comparison is exact: everything is scaled to natural numbers.
-/

namespace TemplateAnalysis.Decimal

/-- The decimal number `digits * 10 ^ exponent`. -/
structure Scaled where
  digits : Nat
  exponent : Int
deriving DecidableEq, Inhabited, Repr

/-- The reals that round to `m * 2 ^ q`, in quarters of `2 ^ q`: from `low` to
`high`, the ends among them when `closed`. -/
structure Rounding where
  low : Nat
  middle : Nat
  high : Nat
  quarter : Int
  closed : Bool
deriving Repr

/-- The reals that round to `m * 2 ^ q`. Below the number the gap is half as wide
when `narrow` holds, that is when `m` is the least significand of its exponent.
A tie between two neighbours goes to the even significand. -/
def Rounding.of (m : Nat) (q : Int) (narrow : Bool) : Rounding where
  low := 4 * m - (if narrow then 1 else 2)
  middle := 4 * m
  high := 4 * m + 2
  quarter := q - 2
  closed := m % 2 == 0

/-- Grid points are counted in steps of `10 ^ e`; this factor takes quarters to
the common scale of both. -/
def quarterScale (quarter e : Int) : Nat := Nat.pow 10 (-e).toNat <<< quarter.toNat

/-- The factor that takes steps of `10 ^ e` to the common scale. -/
def stepScale (quarter e : Int) : Nat := Nat.pow 10 e.toNat <<< (-quarter).toNat

def Rounding.admits (r : Rounding) (e : Int) (d : Nat) : Bool :=
  let point := d * stepScale r.quarter e
  let low := r.low * quarterScale r.quarter e
  let high := r.high * quarterScale r.quarter e
  if r.closed then low ≤ point && point ≤ high else low < point && point < high

/-- The point of the grid `10 ^ e` to print, if the grid has one among the reals:
the nearer of the two around the number, and at equal distance the upper one. -/
def Rounding.onGrid? (r : Rounding) (e : Int) : Option Scaled :=
  let value := r.middle * quarterScale r.quarter e
  let step := stepScale r.quarter e
  let below := value / step
  let upperIsNearer := step ≤ 2 * (value - below * step)
  match r.admits e below, r.admits e (below + 1) with
  | true, true => some ⟨if upperIsNearer then below + 1 else below, e⟩
  | true, false => some ⟨below, e⟩
  | false, true => some ⟨below + 1, e⟩
  | false, false => none

/-- A power of ten above `m * 2 ^ q`, at most two steps above the first digit. -/
def exponentAbove (m : Nat) (q : Int) : Int := (m.log2 + 1 + q) * 30103 / 100000 + 1

/-- The shortest decimal that reads back as `m * 2 ^ q`. Seventeen digits always
do, so the grids below the first digit hold a point within twenty steps. -/
def shortest (m : Nat) (q : Int) (narrow : Bool) : Scaled :=
  let above := exponentAbove m q
  let r := Rounding.of m q narrow
  ((List.range 24).findSome? fun k : Nat => r.onGrid? (above - k)).getD ⟨m, 0⟩

end TemplateAnalysis.Decimal
