import EntityService.Json.Writer

/-!
# Texts with placeholders

The comparison of a text with a pattern in which `%` stands for any characters and `_` for one.

## Main definitions

* `likeEnds` — for each end part of a text, whether it has the form of a pattern
* `isLike` — a text has the form of a pattern
* `cellIsLike` — a cell has the form of a pattern

## Design notes

All end parts of a text are examined together, so each character of the pattern is looked at once
for each character of the text.
-/

namespace EntityService.Store

open EntityService.Json

/-- For each place of a list, whether one of the marks from there on is set. -/
def anyFrom : List Bool → List Bool
  | [] => []
  | b :: rest => (b || rest.any id) :: anyFrom rest

/-- The marks of the places whose character passes a test and whose next place is marked. -/
def stepBack (test : Char → Bool) : List Char → List Bool → List Bool
  | c :: cs, _ :: marks => (test c && marks.head?.getD false) :: stepBack test cs marks
  | _, _ => [false]

/-- For each end part of a text, the empty one included, whether it has the form of a pattern. -/
def likeEnds : List Char → List Char → List Bool
  | [], cs => cs.map (fun _ => false) ++ [true]
  | p :: pattern, cs =>
    let marks := likeEnds pattern cs
    if p = '%' then anyFrom marks
    else stepBack (fun c => p = '_' || c = p) cs marks

/-- A text has the form of a pattern. -/
def isLike (pattern text : List Char) : Bool := (likeEnds pattern text).head?.getD false

/-- A cell has the form of a pattern.  Null has no form. -/
def cellIsLike (cell pattern : Value) : Bool :=
  !cell.isNull && isLike pattern.plainText.toList cell.plainText.toList

end EntityService.Store
