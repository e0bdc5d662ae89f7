import EntityService.Number.Double

/-!
# Shortest decimals

The decimal of fewest digits that reads back as a given double, and among those the nearest.

## Main definitions

* `Decimal` — digits and a power of ten
* `Rounding` — the interval of real numbers that round to a double
* `shortest` — the shortest decimal of a positive finite double

## Design notes

A grid of decimals with `n` digits is tried for each `n` from 1 to 17.  If any point of a grid lies
in the interval, so does one of the two neighbours of the double on that grid, so only these two are
tested.
-/

namespace EntityService.Number

/-- The number `digits * 10 ^ exponent`. -/
structure Decimal where
  digits : Nat
  exponent : Int
  deriving DecidableEq, Repr

/-- The real numbers that round to a double: from `low / den` to `high / den` around
`middle / den`, the two ends included when `closed` is set. -/
structure Rounding where
  low : Nat
  middle : Nat
  high : Nat
  den : Nat
  closed : Bool
  deriving DecidableEq, Repr

namespace Rounding

/-- The interval of a positive finite double.  It reaches half way to each neighbour, and its ends
belong to it when the significand is even. -/
def ofDouble (x : Double) : Rounding :=
  let m := x.significand
  let below := if m == Double.binade && -1074 < x.scale then 1 else 2
  let factor := Double.twoTo (x.scale - 2)
  { low := (4 * m - below) * factor
    middle := 4 * m * factor
    high := (4 * m + 2) * factor
    den := Double.twoTo (2 - x.scale)
    closed := m % 2 == 0 }

/-- The numerator of a decimal over the interval's denominator times `10 ^ (-exponent)`. -/
def scaledPoint (r : Rounding) (d : Decimal) : Nat :=
  d.digits * Double.tenTo d.exponent * r.den

/-- A numerator of the interval brought to the denominator of `scaledPoint`. -/
def scaledBound (bound : Nat) (d : Decimal) : Nat := bound * Double.tenTo (-d.exponent)

/-- The decimal lies in the interval. -/
def contains (r : Rounding) (d : Decimal) : Bool :=
  let point := r.scaledPoint d
  let low := scaledBound r.low d
  let high := scaledBound r.high d
  if r.closed then low ≤ point && point ≤ high else low < point && point < high

/-- Twice the distance of a decimal from the middle, over the denominator of `scaledPoint`. -/
def distance (r : Rounding) (d : Decimal) : Nat :=
  ((r.scaledPoint d : Int) - scaledBound r.middle d).natAbs

/-- The neighbour of the middle on the grid with step `10 ^ exponent` that lies in the interval, the
nearer one of two; of two equally near ones the even one. -/
def neighbour? (r : Rounding) (exponent : Int) : Option Decimal :=
  let below : Decimal :=
    ⟨r.middle * Double.tenTo (-exponent) / (r.den * Double.tenTo exponent), exponent⟩
  let above : Decimal := ⟨below.digits + 1, exponent⟩
  match r.contains below, r.contains above with
  | false, false => none
  | true, false => some below
  | false, true => some above
  | true, true =>
    if r.distance below < r.distance above then some below
    else if r.distance above < r.distance below then some above
    else if below.digits % 2 == 0 then some below else some above

/-- The first hit on the grids of the given steps, coarsest first. -/
def firstHit (r : Rounding) : List Int → Option Decimal
  | [] => none
  | e :: rest => (r.neighbour? e).or (r.firstHit rest)

end Rounding

/-- The count of zeros between the point and the first digit of `num / den` below one, plus one.  At
most `fuel` zeros are looked for. -/
def leadingZeros (num den : Nat) : Nat → Nat
  | 0 => 1
  | fuel + 1 => if den ≤ num * 10 then 1 else leadingZeros (num * 10) den fuel + 1

/-- The exponent `p` with `10 ^ (p - 1) ≤ num / den < 10 ^ p`. -/
def decimalPoint (num den : Nat) : Int :=
  if den ≤ num then (Nat.toDigits 10 (num / den)).length
  else 1 - (leadingZeros num den 400 : Int)

/-- Move the zeros at the end of the digits into the exponent.  At most `fuel` zeros are moved. -/
def Decimal.withoutZeros (d : Decimal) : Nat → Decimal
  | 0 => d
  | fuel + 1 =>
    if d.digits % 10 == 0 then Decimal.withoutZeros ⟨d.digits / 10, d.exponent + 1⟩ fuel else d

/-- The shortest decimal that reads back as a positive finite double. -/
def shortest (x : Double) : Decimal :=
  let r := Rounding.ofDouble x
  let p := decimalPoint r.middle r.den
  match r.firstHit ((List.range 17).map fun (n : Nat) => p - 1 - n) with
  | some d => d.withoutZeros 20
  | none => ⟨0, 0⟩

end EntityService.Number
