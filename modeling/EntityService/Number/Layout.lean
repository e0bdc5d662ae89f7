import EntityService.Number.Shortest

/-!
# Number texts

Doubles as texts.  The digits are always the shortest that read back; a layout decides between plain
and scientific notation.

## Main definitions

* `Layout` — the decisions of a number format
* `Layout.text` — the text of a double in a layout
* `Layout.exchange` — the layout of data that is exchanged
* `Layout.plain` — the layout of numbers in messages
-/

namespace EntityService.Number

/-- The decisions of a number format. -/
structure Layout where
  /-- Exponents of the first digit at which scientific notation is used. -/
  scientific : Int → Bool
  /-- Whole numbers in plain notation end in `.0`. -/
  wholeMark : Bool

namespace Layout

/-- Numbers from 1e-5 up to below 1e16 are written plainly, whole ones with `.0`. -/
def exchange : Layout := ⟨fun e => e < -5 || 16 ≤ e, true⟩

/-- All numbers are written plainly, whole ones without a fraction. -/
def plain : Layout := ⟨fun _ => false, false⟩

/-- Zeros as text. -/
def zeros (n : Nat) : String := String.ofList (List.replicate n '0')

/-- Plain notation of `digits`, whose first digit has the exponent `first`. -/
def positional (l : Layout) (digits : List Char) (first : Int) : String :=
  if first < 0 then "0." ++ zeros (-first - 1).toNat ++ String.ofList digits
  else
    let whole := first.toNat + 1
    if digits.length ≤ whole then
      String.ofList digits ++ zeros (whole - digits.length) ++ (if l.wholeMark then ".0" else "")
    else String.ofList (digits.take whole) ++ "." ++ String.ofList (digits.drop whole)

/-- Scientific notation of `digits`, whose first digit has the exponent `first`. -/
def scientificText (digits : List Char) (first : Int) : String :=
  let fraction :=
    if digits.length ≤ 1 then "" else "." ++ String.ofList (digits.drop 1)
  let sign := if first < 0 then "-" else "+"
  String.ofList (digits.take 1) ++ fraction ++ "e" ++ sign ++ toString first.natAbs

/-- The text of a double without its sign. -/
def unsignedText (l : Layout) (x : Double) : String :=
  if x.isNaN then "NaN"
  else if !x.isFinite then "inf"
  else if x.magnitude = 0 then (if l.wholeMark then "0.0" else "0")
  else
    let d := shortest x
    let digits := Nat.toDigits 10 d.digits
    let first := d.exponent + digits.length - 1
    if l.scientific first then scientificText digits first else l.positional digits first

/-- The text of a double. -/
def text (l : Layout) (x : Double) : String :=
  (if x.negative && !x.isNaN then "-" else "") ++ l.unsignedText x

end Layout

end EntityService.Number
