import EntityService.Text.CaseMap
import EntityService.Text.Category

/-!
# Case conversion

Full case conversion of characters and texts, independent of any language.

## Main definitions

* `lowerChars`, `upperChars` — the lowercase and uppercase form of a character, which may be several
  characters long
* `lowercase`, `uppercase` — the conversion of a text
* `sameUpToCase` — the characters that differ from a given one in case only

## Design notes

ASCII letters are converted by a test of their own; all other characters go through the tables of
`EntityService.Text.CaseMap`.  The one rule that looks at the neighbours of a character is the
capital sigma, whose lowercase form depends on whether it ends a word.
-/

namespace EntityService.Text

/-- The code point that the first fitting shift moves a code point to. -/
def shifted (shifts : List CaseShift) (code : Nat) : Nat :=
  match shifts.find? (·.covers code) with
  | some s => s.apply code
  | none => code

/-- The lowercase form of a character. -/
def lowerChars (c : Char) : List Char :=
  if c.toNat < 128 then
    if 'A' ≤ c && c ≤ 'Z' then [Char.ofNat (c.toNat + 32)] else [c]
  else
    match lowerExpansions.lookup c.toNat with
    | some codes => codes.map Char.ofNat
    | none => [Char.ofNat (shifted lowerShifts c.toNat)]

/-- The uppercase form of a character. -/
def upperChars (c : Char) : List Char :=
  if c.toNat < 128 then
    if 'a' ≤ c && c ≤ 'z' then [Char.ofNat (c.toNat - 32)] else [c]
  else
    match upperExpansions.lookup c.toNat with
    | some codes => codes.map Char.ofNat
    | none => [Char.ofNat (shifted upperShifts c.toNat)]

/-- After the case ignorable characters at the start of a list comes a cased one. -/
def startsCased (cs : List Char) : Bool :=
  match cs.dropWhile isCaseIgnorable with
  | [] => false
  | c :: _ => isCased c

/-- The capital sigma. -/
def capitalSigma : Char := 'Σ'

/-- A capital sigma ends a word when a cased character comes before it and none after it, case
ignorable characters aside.  `before` is the text before it in reverse order. -/
def endsWord (before after : List Char) : Bool :=
  startsCased before && !startsCased after

/-- The lowercase form of a list of characters that follows `before`, given in reverse order. -/
def lowercaseAfter (before : List Char) : List Char → List Char
  | [] => []
  | c :: rest =>
    let here :=
      if c == capitalSigma then [if endsWord before rest then 'ς' else 'σ'] else lowerChars c
    here ++ lowercaseAfter (c :: before) rest

/-- The lowercase form of a text. -/
def lowercase (s : String) : String :=
  String.ofList (lowercaseAfter [] s.toList)

/-- The uppercase form of a text. -/
def uppercase (s : String) : String :=
  String.ofList (s.toList.flatMap upperChars)

/-- The characters that differ from a character in case only, itself included.  The dotless i folds
to nothing but itself. -/
def sameUpToCase (c : Char) : List Char :=
  match foldOrbits.find? (·.contains c.toNat) with
  | some codes => codes.map Char.ofNat
  | none =>
    if c == 'ı' then [c]
    else
      let one := fun (form : List Char) => if form.length == 1 then form else []
      c :: (one (lowerChars c) ++ one (upperChars c)).filter (· != c)

end EntityService.Text
