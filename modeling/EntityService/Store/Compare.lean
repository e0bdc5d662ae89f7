import EntityService.Json.Writer
import EntityService.Number.Numeral
import EntityService.Text.Blank

/-!
# Comparison of cells

The order and equality of cells across the kinds of values.

## Main definitions

* `numberOf?` — the number that a value stands for
* `compareCells?` — the order of two cells
* `sameCell` — equality of two cells
* `sortOrder` — the order in which rows are sorted

## Design notes

Numbers and texts that spell numbers are compared as numbers, everything else as text.  Null can be
compared with nothing; in a sorted list it comes after all other values.
-/

namespace EntityService.Store

open EntityService.Json EntityService.Number

/-- The number that a value stands for: a number, or a text that spells one between white space. -/
def numberOf? : Value → Option Double
  | .number n => some n.toDouble
  | .string s => readDouble? (Text.trim s)
  | _ => none

/-- The order of two cells, absent when one of them is null or no number. -/
def compareCells? (a b : Value) : Option Ordering :=
  if a.isNull || b.isNull then none
  else
    match numberOf? a, numberOf? b with
    | some x, some y => x.order? y
    | _, _ => some (compare a.plainText b.plainText)

/-- Equality of two cells.  Null is equal to nothing. -/
def sameCell (a b : Value) : Bool := compareCells? a b == some .eq

/-- The order in which rows are sorted: null after everything, and values that cannot be compared
next to each other. -/
def sortOrder (a b : Value) : Ordering :=
  match a.isNull, b.isNull with
  | true, true => .eq
  | true, false => .gt
  | false, true => .lt
  | false, false => (compareCells? a b).getD .eq

end EntityService.Store
