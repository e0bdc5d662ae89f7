import EntityService.Time.Date

/-!
# Points in time

A date with a time of day.

## Main definitions

* `isInstantText` — a text that denotes a date, a time of day and an offset
* `instantText` — the text of a number of microseconds after 2000-01-01

## Design notes

A second may have the number 60, in any minute.  Fractions of a second are written with three or six
digits, or not at all when there is none.
-/

namespace EntityService.Time

open EntityService.Number

/-- A number of two digits that is at most `last`, and what follows it. -/
def twoDigits? (last : Nat) (cs : List Char) : Option (Nat × List Char) :=
  (number? 2 2 cs).filter fun (n, _) => n ≤ last

/-- What follows an optional fraction of a second. -/
def afterFraction? : List Char → Option (List Char)
  | '.' :: rest => (number? 1 rest.length rest).map Prod.snd
  | cs => some cs

/-- What follows an offset: the letter `Z`, or a sign with hours and minutes. -/
def afterOffset? : List Char → Option (List Char)
  | [] => none
  | c :: rest =>
    if c = 'Z' ∨ c = 'z' then some rest
    else if c = '+' ∨ c = '-' ∨ c = '\u2212' then do
      let (_, cs) ← twoDigits? 23 rest
      let cs ← after? ':' cs
      let (_, cs) ← twoDigits? 59 cs
      some cs
    else none

/-- What follows the separator of date and time. -/
def afterSeparator? : List Char → Option (List Char)
  | [] => none
  | c :: rest => if c = 'T' ∨ c = 't' ∨ c = ' ' then some rest else none

/-- What follows the date, time and offset at the start of a text. -/
def afterInstant? (cs : List Char) : Option (List Char) := do
  let (year, cs) ← number? 4 4 cs
  let cs ← after? '-' cs
  let (month, cs) ← number? 2 2 cs
  let cs ← after? '-' cs
  let (day, cs) ← number? 2 2 cs
  let cs ← afterSeparator? cs
  let (_, cs) ← twoDigits? 23 cs
  let cs ← after? ':' cs
  let (_, cs) ← twoDigits? 59 cs
  let cs ← after? ':' cs
  let (_, cs) ← twoDigits? 60 cs
  let cs ← afterFraction? cs
  if (Date.mk year month day).isValid then afterOffset? cs else none

/-- A text that denotes a date, a time of day and an offset. -/
def isInstantText (s : String) : Bool := afterInstant? s.toList == some []

/-- The microseconds of a day. -/
def microsecondsOfDay : Int := 86400000000

/-- A fraction of a second, given in microseconds. -/
def fractionText (microseconds : Nat) : String :=
  if microseconds = 0 then ""
  else if microseconds % 1000 = 0 then "." ++ padded 3 (microseconds / 1000)
  else "." ++ padded 6 microseconds

/-- The text of the point in time `microseconds` after the start of 2000-01-01, without an
offset. -/
def instantText (microseconds : Int) : String :=
  let date := Date.ofDays (microseconds / microsecondsOfDay)
  let rest := (microseconds % microsecondsOfDay).toNat
  let seconds := rest / 1000000
  date.text ++ "T" ++ padded 2 (seconds / 3600) ++ ":" ++ padded 2 (seconds / 60 % 60) ++ ":" ++
    padded 2 (seconds % 60) ++ fractionText (rest % 1000000)

end EntityService.Time
