/-!
# Double precision numbers

The numbers of the binary64 format, with exact rounding of rational numbers to them.

## Main definitions

* `Double` — a sign and a magnitude, the exponent and fraction bits read as one natural number
* `Double.order?` — the numerical order, in which a NaN has no place
* `Double.ofRatio` — the double nearest to a quotient, ties going to the even neighbour
* `Double.ofInt`, `Double.toInt` — conversion from and to integers

## Design notes

Among doubles of one sign the magnitude grows with the absolute value, so the numerical order is the
order of the signed magnitudes.  All operations are computed in integers: a finite double is
`significand * 2 ^ scale`.
-/

namespace EntityService.Number

/-- A double precision number.  `magnitude` holds the eleven exponent bits and the 52 fraction bits;
magnitudes above that of infinity are the NaNs. -/
structure Double where
  negative : Bool
  magnitude : Nat
  deriving DecidableEq, Repr, Inhabited

namespace Double

/-- The magnitude of infinity. -/
def infinityMagnitude : Nat := 0x7FF0000000000000

/-- The step from one exponent to the next, in magnitudes. -/
def binade : Nat := 0x10000000000000

/-- The double that is not a number. -/
def nan : Double := ⟨false, infinityMagnitude + 1⟩

/-- The infinity of a sign. -/
def infinite (negative : Bool) : Double := ⟨negative, infinityMagnitude⟩

/-- The zero of a sign. -/
def zero (negative : Bool) : Double := ⟨negative, 0⟩

/-- A double that is not a number. -/
def isNaN (x : Double) : Bool := infinityMagnitude < x.magnitude

/-- A double that is neither infinite nor a NaN. -/
def isFinite (x : Double) : Bool := x.magnitude < infinityMagnitude

/-- The place of a double in the numerical order; the two zeros share one place. -/
def place (x : Double) : Int :=
  if x.negative then -(x.magnitude : Int) else x.magnitude

/-- The numerical order of two doubles, absent when one of them is a NaN. -/
def order? (x y : Double) : Option Ordering :=
  if x.isNaN || y.isNaN then none else some (compare x.place y.place)

/-- Numerical equality. -/
def sameNumber (x y : Double) : Bool :=
  x.order? y == some .eq

/-- The significand of a finite double: the integer `m` of `m * 2 ^ scale`. -/
def significand (x : Double) : Nat :=
  if x.magnitude < binade then x.magnitude else binade + x.magnitude % binade

/-- The scale of a finite double: the exponent `q` of `significand * 2 ^ q`. -/
def scale (x : Double) : Int :=
  if x.magnitude < binade then -1074 else (x.magnitude / binade : Nat) - 1075

/-- The quotient of two natural numbers, rounded to the nearest integer, ties to the even one. -/
def roundedQuotient (num den : Nat) : Nat :=
  let quotient := num / den
  let rest := num % den
  if 2 * rest < den then quotient
  else if den < 2 * rest then quotient + 1
  else quotient + quotient % 2

/-- A power of two; for negative exponents it is one. -/
def twoTo (exponent : Int) : Nat := Nat.pow 2 exponent.toNat

/-- A power of ten; for negative exponents it is one. -/
def tenTo (exponent : Int) : Nat := Nat.pow 10 exponent.toNat

/-- The numerator of `num / den / 2 ^ q` over `scaledDen den q`. -/
def scaledNum (num : Nat) (q : Int) : Nat := num * twoTo (-q)

/-- The denominator of `num / den / 2 ^ q` under `scaledNum num q`. -/
def scaledDen (den : Nat) (q : Int) : Nat := den * twoTo q

/-- The scale at which a positive quotient has a significand of 53 bits, but never below the least
scale. -/
def scaleOfRatio (num den : Nat) : Int :=
  let low : Int := (num.log2 : Int) - den.log2 - 53
  let fitting := if scaledNum num low < twoTo 53 * scaledDen den low then low else low + 1
  max fitting (-1074)

/-- The double nearest to `num / den` with a given sign; quotients beyond the largest double become
infinite. -/
def ofRatio (negative : Bool) (num den : Nat) : Double :=
  if num = 0 then zero negative
  else
    let q := scaleOfRatio num den
    let magnitude := (q + 1074).toNat * binade + roundedQuotient (scaledNum num q) (scaledDen den q)
    ⟨negative, min magnitude infinityMagnitude⟩

/-- The double nearest to an integer. -/
def ofInt (n : Int) : Double := ofRatio (n < 0) n.natAbs 1

/-- The numerator of a finite double's absolute value over `den`. -/
def num (x : Double) : Nat := x.significand * twoTo x.scale

/-- The denominator of a finite double's absolute value under `num`. -/
def den (x : Double) : Nat := twoTo (-x.scale)

/-- The product of two finite doubles. -/
def times (x y : Double) : Double :=
  ofRatio (x.negative != y.negative) (x.num * y.num) (x.den * y.den)

/-- The quotient of two finite doubles, the second of them not zero. -/
def dividedBy (x y : Double) : Double :=
  ofRatio (x.negative != y.negative) (x.num * y.den) (x.den * y.num)

/-- The double nearest to a power of ten. -/
def powerOfTen (k : Nat) : Double := ofRatio false (tenTo k) 1

/-- The double nearest to `digits * 10 ^ exponent` with a given sign.  Exponents that put the number
beyond the largest or below the least double are decided by its count of digits. -/
def ofDecimal (negative : Bool) (digits : Nat) (exponent : Int) : Double :=
  let length : Int := (Nat.toDigits 10 digits).length
  if digits = 0 then zero negative
  else if 310 < length + exponent then infinite negative
  else if length + exponent < -330 then zero negative
  else ofRatio negative (digits * tenTo exponent) (tenTo (-exponent))

/-- The largest integer of 64 bits with a sign. -/
def maxInt64 : Int := 0x7FFFFFFFFFFFFFFF

/-- The least integer of 64 bits with a sign. -/
def minInt64 : Int := -0x8000000000000000

/-- The integer part of a double, limited to 64 bits with a sign; a NaN gives zero. -/
def toInt (x : Double) : Int :=
  if x.isNaN then 0
  else if !x.isFinite then (if x.negative then minInt64 else maxInt64)
  else
    let whole : Int := x.num / x.den
    max minInt64 (min maxInt64 (if x.negative then -whole else whole))

/-! ### Doubles that are numbers -/

theorem isNaN_of_isFinite {x : Double} (h : x.isFinite) : x.isNaN = false := by
  unfold isFinite at h
  unfold isNaN
  simp at h ⊢
  omega

/-- No rounding gives a NaN. -/
theorem isNaN_ofRatio (negative : Bool) (num den : Nat) :
    (ofRatio negative num den).isNaN = false := by
  unfold ofRatio isNaN
  split
  · rfl
  · exact decide_eq_false (Nat.not_lt_of_le (Nat.min_le_right _ _))

theorem isNaN_ofInt (n : Int) : (ofInt n).isNaN = false := isNaN_ofRatio _ _ _

theorem isNaN_ofDecimal (negative : Bool) (digits : Nat) (exponent : Int) :
    (ofDecimal negative digits exponent).isNaN = false := by
  unfold ofDecimal
  dsimp only
  split
  · rfl
  split
  · rfl
  split
  · rfl
  · exact isNaN_ofRatio _ _ _

end Double

end EntityService.Number
