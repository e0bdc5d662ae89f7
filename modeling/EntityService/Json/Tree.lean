import EntityService.Json.Value

/-!
# Data as it is spelled

The tree of a text before it is taken for a value: numbers are spellings, keys may repeat, and a
text with an unpaired surrogate has no content.

## Main definitions

* `Tree` — the tree of a text
* `Tree.value?` — the value of a tree
* `Tree.ofValue` — the tree of a value as it is written

## Design notes

A tree can be valid where a value is not: members that nobody asks for may nest deeply, hold numbers
out of range or texts without content.  `Tree.value?` is where these are refused.
-/

namespace EntityService.Json

open EntityService.Number

/-- The tree of a text. -/
inductive Tree where
  | null
  | bool (b : Bool)
  | number (n : Numeral)
  | string (s : Option String)
  | array (items : List Tree)
  | object (members : List (Option String × Tree))
  deriving Repr

namespace Tree

/-- Arrays and objects of a value nest at most this deep. -/
def maxDepth : Nat := 127

mutual
/-- The value of a tree that may nest `depth` levels deep.  Of members with the same key the last
one counts. -/
def valueWithin? (depth : Nat) : Tree → Option Value
  | null => some .null
  | bool b => some (.bool b)
  | number n => n.number?.map .number
  | string s => s.map .string
  | array items =>
    if depth = 0 then none else (itemsWithin? (depth - 1) items).map .array
  | object members =>
    if depth = 0 then none else (membersWithin? (depth - 1) members).map Value.ofMembers

/-- The values of the items of an array. -/
def itemsWithin? (depth : Nat) : List Tree → Option (List Value)
  | [] => some []
  | t :: rest => do
    let v ← valueWithin? depth t
    let vs ← itemsWithin? depth rest
    return v :: vs

/-- The values of the members of an object. -/
def membersWithin? (depth : Nat) : List (Option String × Tree) → Option (List (String × Value))
  | [] => some []
  | (key?, t) :: rest => do
    let key ← key?
    let v ← valueWithin? depth t
    let vs ← membersWithin? depth rest
    return (key, v) :: vs
end

/-- The value of a tree. -/
def value? (t : Tree) : Option Value := t.valueWithin? maxDepth

/-- The spelling of an integer. -/
def numeralOfInt (n : Int) : Numeral :=
  { negative := n < 0, whole := Nat.toDigits 10 n.natAbs, fraction := [], exponent := none }

/-- The spelling of a finite double with the digits of its shortest decimal. -/
def numeralOfDouble (x : Double) : Numeral :=
  if x.magnitude = 0 then
    { negative := x.negative, whole := ['0'], fraction := ['0'], exponent := none }
  else
    let d := shortest x
    let digits := Nat.toDigits 10 d.digits
    let first := d.exponent + digits.length - 1
    if Layout.exchange.scientific first then
      { negative := x.negative, whole := digits.take 1, fraction := digits.drop 1
        exponent := some (decide (first < 0), Nat.toDigits 10 first.natAbs) }
    else if first < 0 then
      { negative := x.negative, whole := ['0']
        fraction := List.replicate (-first - 1).toNat '0' ++ digits, exponent := none }
    else
      let whole := first.toNat + 1
      let padded := digits ++ List.replicate (whole - digits.length) '0'
      let fraction := padded.drop whole
      { negative := x.negative, whole := padded.take whole
        fraction := if fraction = [] then ['0'] else fraction, exponent := none }

/-- The tree of a number as it is written. -/
def ofNumber : Number → Tree
  | .integer n => number (numeralOfInt n)
  | .real x => if x.isFinite then number (numeralOfDouble x) else null

mutual
/-- The tree of a value as it is written. -/
def ofValue : Value → Tree
  | .null => null
  | .bool b => bool b
  | .number n => ofNumber n
  | .string s => string (some s)
  | .array items => array (ofItems items)
  | .object members => object (ofMembers members)

/-- The trees of the items of an array. -/
def ofItems : List Value → List Tree
  | [] => []
  | v :: rest => ofValue v :: ofItems rest

/-- The trees of the members of an object. -/
def ofMembers : List (String × Value) → List (Option String × Tree)
  | [] => []
  | (key, v) :: rest => (some key, ofValue v) :: ofMembers rest
end

end Tree

end EntityService.Json
