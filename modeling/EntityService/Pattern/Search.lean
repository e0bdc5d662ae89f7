import EntityService.Pattern.CharSet

/-!
# Patterns

Patterns for texts, and the search for them.

## Main definitions

* `Pattern` — a pattern
* `Pattern.ends` — the places where an occurrence can end, by the places where it can start
* `Pattern.occursIn` — a pattern occurs somewhere in a text

## Design notes

A set of places in a text is a number whose bit `i` stands for the place before the character `i`.
All starts are followed at the same time, so the time of a search has a bound that does not depend
on how the parts of a pattern can share a text among them.
-/

namespace EntityService

/-- A pattern: nothing, a character of a set, a condition on the two characters around a place, two
patterns in a row, either of two patterns, or a pattern several times. -/
inductive Pattern where
  | empty
  | one (set : Char → Bool)
  | place (holds : Option Char → Option Char → Bool)
  | sequence (first second : Pattern)
  | either (first second : Pattern)
  | repeated (body : Pattern) (least : Nat) (most : Option Nat)

namespace Pattern

/-- The number with the given bits, of which the first is the lowest. -/
def ofBits (bits : List Bool) : Nat := bits.foldr (fun b n => 2 * n + b.toNat) 0

/-- The places before a character of a set. -/
def placesBefore (set : Char → Bool) (cs : List Char) : Nat := ofBits (cs.map set)

/-- The places between two characters that satisfy a condition; `before` is the character before the
first place. -/
def placesBetween (holds : Option Char → Option Char → Bool) (before : Option Char) :
    List Char → List Bool
  | [] => [holds before none]
  | c :: rest => holds before (some c) :: placesBetween holds (some c) rest

/-- Apply a step a number of times, and stop early when nothing changes. -/
def stepTimes (step : Nat → Nat) : Nat → Nat → Nat
  | 0, starts => starts
  | times + 1, starts =>
    let next := step starts
    if next = starts then starts else stepTimes step times next

/-- The places reached by at most a number of steps. -/
def stepUpTo (step : Nat → Nat) : Nat → Nat → Nat
  | 0, starts => starts
  | times + 1, starts =>
    let next := starts ||| step starts
    if next = starts then starts else stepUpTo step times next

/-- The places where an occurrence can end when it starts at one of the given places. -/
def ends (cs : List Char) : Pattern → Nat → Nat
  | empty, starts => starts
  | one set, starts => (starts &&& placesBefore set cs) <<< 1
  | place holds, starts => starts &&& ofBits (placesBetween holds none cs)
  | sequence first second, starts => ends cs second (ends cs first starts)
  | either first second, starts => ends cs first starts ||| ends cs second starts
  | repeated body least most, starts =>
    stepUpTo (ends cs body) (match most with
      | some most => most - least
      | none => cs.length + 1) (stepTimes (ends cs body) least starts)

/-- All places of a text. -/
def allPlaces (cs : List Char) : Nat := (1 <<< (cs.length + 1)) - 1

/-- A pattern occurs somewhere in a text. -/
def occursIn (p : Pattern) (s : String) : Bool :=
  p.ends s.toList (allPlaces s.toList) != 0

/-- The count of characters that a pattern takes at most, where a part without an upper bound counts
as often as it has to occur, or once. -/
def size : Pattern → Nat
  | empty => 0
  | one _ => 1
  | place _ => 1
  | sequence first second => first.size + second.size
  | either first second => first.size + second.size
  | repeated body least most => body.size * max 1 (most.getD least)

end Pattern

end EntityService
