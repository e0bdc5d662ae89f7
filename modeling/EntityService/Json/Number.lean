import EntityService.Number.Layout
import EntityService.Number.Numeral

/-!
# Numbers of data

A number is an integer of 64 bits, with or without a sign, or a double.

## Main definitions

* `Number` — an integer or a double
* `Number.toDouble` — the double nearest to a number
* `Number.text` — the text of a number
* `Numeral` — a number as it is spelled
* `Numeral.number?` — the number that a spelling denotes

## Design notes

A spelling without point and exponent denotes an integer as long as it fits into 64 bits.  All other
spellings denote doubles, rounded in two steps: the leading digits that fit into 64 bits are rounded
to a double, which is then multiplied or divided by a rounded power of ten.
-/

namespace EntityService.Json

open EntityService.Number

/-- A number of data. -/
inductive Number where
  | integer (n : Int)
  | real (x : Double)
  deriving DecidableEq, Repr

namespace Number

/-- The double nearest to a number. -/
def toDouble : Number → Double
  | integer n => Double.ofInt n
  | real x => x

/-- The text of a number.  A double that is not finite has no text of its own and is written as
absent. -/
def text : Number → String
  | integer n => toString n
  | real x => if x.isFinite then Layout.exchange.text x else "null"

/-- Two numbers of the same kind with the same value; the two zeros among the doubles are the
same. -/
def same : Number → Number → Bool
  | integer a, integer b => a == b
  | real x, real y => x.sameNumber y
  | _, _ => false

end Number

/-- A number as it is spelled: a sign, whole digits, digits after a point, and the sign and digits
of an exponent. -/
structure Numeral where
  negative : Bool
  whole : List Char
  fraction : List Char
  exponent : Option (Bool × List Char)
  deriving DecidableEq, Repr

namespace Numeral

/-- The digits at the front that extend `start` within 64 bits, as the number they give, with the
count of digits taken. -/
def leading (start : Nat) : List Char → Nat × Nat
  | [] => (start, 0)
  | c :: rest =>
    let next := 10 * start + digitValue c
    if maxNatural64 < next then (start, 0)
    else
      let (value, taken) := leading next rest
      (value, taken + 1)

/-- A significand divided by powers of ten that are too large for one step.  At most `fuel` steps of
308 are made, and three of them leave nothing. -/
def dividedDown (x : Double) (exponent : Nat) : Nat → Double
  | 0 => Double.zero false
  | fuel + 1 =>
    if exponent ≤ 308 then x.dividedBy (Double.powerOfTen exponent)
    else if x.magnitude = 0 then x
    else dividedDown (x.dividedBy (Double.powerOfTen 308)) (exponent - 308) fuel

/-- The double `significand * 10 ^ exponent`, rounded after each of the two steps; absent when it is
too large. -/
def scaled? (significand : Nat) (exponent : Int) : Option Double :=
  let x := Double.ofInt significand
  if exponent < 0 then some (dividedDown x exponent.natAbs 4)
  else if 308 < exponent then (if significand = 0 then some x else none)
  else
    let product := x.times (Double.powerOfTen exponent.toNat)
    if product.isFinite then some product else none

/-- The largest integer of 32 bits with a sign, the bound on exponents. -/
def maxExponent : Nat := 0x7FFFFFFF

/-- A double with a minus sign if asked for. -/
def signed (negative : Bool) (x : Double) : Double := { x with negative }

/-- The double a spelling denotes, absent when it is too large. -/
def double? (n : Numeral) : Option Double :=
  let (whole, taken) := leading 0 n.whole
  let (significand, places) := leading whole n.fraction
  let shift : Int := (n.whole.length - taken : Nat) - (places : Int)
  let magnitude := match n.exponent with
    | none => scaled? significand shift
    | some (negative, digits) =>
      let e := digitsValue digits
      if maxExponent < e then
        if significand ≠ 0 ∧ !negative then none else some (Double.zero false)
      else scaled? significand (if negative then shift - e else shift + e)
  magnitude.map (signed n.negative)

/-- The number a spelling denotes, absent when it is too large.  Minus zero is a double. -/
def number? (n : Numeral) : Option Number :=
  let whole := digitsValue n.whole
  if n.fraction ≠ [] ∨ n.exponent.isSome ∨ maxNatural64 < whole then n.double?.map .real
  else if !n.negative then some (.integer whole)
  else if whole = 0 ∨ -(whole : Int) < Double.minInt64 then
    some (.real (signed true (Double.ofInt whole)))
  else some (.integer (-(whole : Int)))

end Numeral

end EntityService.Json
