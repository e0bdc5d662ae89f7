import EntityService.Number.Numeral
import EntityService.Text.Blank

/-!
# Dates

Dates of the calendar with its leap years, continued without end into the past.

## Main definitions

* `Date` — year, month and day
* `Date.isValid` — there is such a day
* `Date.read?` — the date a text denotes
* `Date.ofDays` — the date that comes a number of days after 2000-01-01
* `Date.text` — the text of a date

## Design notes

Reading is lenient: white space may stand before each number, month and day may have one digit, and
a year with a sign may have any number of digits.
-/

namespace EntityService.Time

open EntityService.Number EntityService.Text

/-- A date.  The year zero comes before the year one. -/
structure Date where
  year : Int
  month : Nat
  day : Nat
  deriving DecidableEq, Repr

/-- Years that have a leap day. -/
def isLeapYear (year : Int) : Bool := year % 4 == 0 && (year % 100 != 0 || year % 400 == 0)

/-- The count of days of a month. -/
def daysOfMonth (year : Int) (month : Nat) : Nat :=
  if month = 2 then (if isLeapYear year then 29 else 28)
  else if month ∈ [4, 6, 9, 11] then 30
  else 31

/-- The first year. -/
def firstYear : Int := -262143

/-- The last year. -/
def lastYear : Int := 262142

/-- The number written by the digits at the start of a text, of which there have to be `least` and
are taken `most`, and what follows them. -/
def number? (least most : Nat) (cs : List Char) : Option (Nat × List Char) :=
  let digits := (cs.take most).takeWhile isDigit
  if digits.length < least then none else some (digitsValue digits, cs.drop digits.length)

/-- What follows an expected character. -/
def after? (expected : Char) : List Char → Option (List Char)
  | [] => none
  | c :: rest => if c = expected then some rest else none

/-- A year and what follows it.  Without a sign it has at most four digits. -/
def year? : List Char → Option (Int × List Char)
  | '-' :: rest => (number? 1 rest.length rest).map fun (n, rest) => (-(n : Int), rest)
  | '+' :: rest => (number? 1 rest.length rest).map fun (n, rest) => ((n : Int), rest)
  | cs => (number? 1 4 cs).map fun (n, rest) => ((n : Int), rest)

namespace Date

/-- There is such a day. -/
def isValid (d : Date) : Bool :=
  firstYear ≤ d.year && d.year ≤ lastYear && 1 ≤ d.month && d.month ≤ 12 && 1 ≤ d.day &&
    d.day ≤ daysOfMonth d.year d.month

/-- The date a text denotes: year, month and day with hyphens between them. -/
def read? (s : String) : Option Date := do
  let (year, cs) ← year? (s.toList.dropWhile isBlank)
  let cs ← after? '-' cs
  let (month, cs) ← number? 1 2 (cs.dropWhile isBlank)
  let cs ← after? '-' cs
  let (day, cs) ← number? 1 2 (cs.dropWhile isBlank)
  let date : Date := ⟨year, month, day⟩
  if cs.isEmpty && date.isValid then some date else none

/-- The days from the first of March of the year zero to 2000-01-01. -/
def daysBeforeEpoch : Int := 730425

/-- The date that comes `days` days after 2000-01-01.  Years are counted from the first of March on,
so that the leap day ends a year; 400 years have 146097 days, and the months from March on begin at
the days `(153 * m + 2) / 5`. -/
def ofDays (days : Int) : Date :=
  let z := days + daysBeforeEpoch
  let era := z / 146097
  let dayOfEra := z % 146097
  let yearOfEra := (dayOfEra - dayOfEra / 1460 + dayOfEra / 36524 - dayOfEra / 146096) / 365
  let dayOfYear := dayOfEra - (365 * yearOfEra + yearOfEra / 4 - yearOfEra / 100)
  let m := (5 * dayOfYear + 2) / 153
  let month := if m < 10 then m + 3 else m - 9
  let year := yearOfEra + era * 400 + (if month ≤ 2 then 1 else 0)
  ⟨year, month.toNat, (dayOfYear - (153 * m + 2) / 5 + 1).toNat⟩

end Date

/-- A number with at least `width` digits. -/
def padded (width n : Nat) : String :=
  let digits := toString n
  String.ofList (List.replicate (width - digits.length) '0') ++ digits

/-- The text of a year: four digits, or a sign and at least four digits when it has no place among
the years of four digits. -/
def yearText (year : Int) : String :=
  if year < 0 then "-" ++ padded 4 year.natAbs
  else if 9999 < year then "+" ++ padded 4 year.natAbs
  else padded 4 year.natAbs

/-- The text of a date. -/
def Date.text (d : Date) : String :=
  yearText d.year ++ "-" ++ padded 2 d.month ++ "-" ++ padded 2 d.day

end EntityService.Time
