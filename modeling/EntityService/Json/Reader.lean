import EntityService.Json.Tree

/-!
# Reading values

Texts as trees and as values.

## Main definitions

* `readTree?` — the tree of a text
* `readFirstTree?` — the tree at the start of a text, whatever follows it
* `readValue?`, `readFirstValue?` — the same with the value of the tree

## Design notes

A reader takes characters and gives what it read with the characters that are left.  The reader of a
tree is bounded by the length of its text, of which every tree takes at least one character.
-/

namespace EntityService.Json

open EntityService.Number

/-- The white space between the words of a text. -/
def isSpace (c : Char) : Bool := c == ' ' || c == '\t' || c == '\n' || c == '\r'

/-- The characters from the first one that is not white space. -/
def skipSpace (cs : List Char) : List Char := cs.dropWhile isSpace

/-- The value of a hexadecimal digit. -/
def hexDigit? (c : Char) : Option Nat :=
  if '0' ≤ c && c ≤ '9' then some (c.toNat - '0'.toNat)
  else if 'a' ≤ c && c ≤ 'f' then some (c.toNat - 'a'.toNat + 10)
  else if 'A' ≤ c && c ≤ 'F' then some (c.toNat - 'A'.toNat + 10)
  else none

/-- The value of four hexadecimal digits. -/
def hexValue? (a b c d : Char) : Option Nat := do
  let a ← hexDigit? a
  let b ← hexDigit? b
  let c ← hexDigit? c
  let d ← hexDigit? d
  return ((a * 16 + b) * 16 + c) * 16 + d

/-- The first half of a surrogate pair. -/
def isHighSurrogate (n : Nat) : Bool := 0xD800 ≤ n && n ≤ 0xDBFF

/-- The second half of a surrogate pair. -/
def isLowSurrogate (n : Nat) : Bool := 0xDC00 ≤ n && n ≤ 0xDFFF

/-- The character of a surrogate pair. -/
def pairedChar (high low : Nat) : Char :=
  Char.ofNat (0x10000 + (high - 0xD800) * 0x400 + (low - 0xDC00))

/-- The character that an escape of one letter stands for. -/
def escapeLetter? (c : Char) : Option Char :=
  match c with
  | '"' => some '"'
  | '\\' => some '\\'
  | '/' => some '/'
  | 'b' => some '\x08'
  | 'f' => some '\x0c'
  | 'n' => some '\n'
  | 'r' => some '\r'
  | 't' => some '\t'
  | _ => none

/-- Read a text up to its closing quote.  `done` holds the characters read so far in reverse order,
`pending` the first half of a surrogate pair whose second half has to come next, and `sound` tells
that all surrogates so far are paired. -/
def readQuoted (done : List Char) (pending : Option Nat) (sound : Bool) :
    List Char → Option (Option String × List Char)
  | [] => none
  | '"' :: rest =>
    some (if sound && pending.isNone then some (String.ofList done.reverse) else none, rest)
  | '\\' :: 'u' :: a :: b :: c :: d :: rest =>
    match hexValue? a b c d with
    | none => none
    | some n =>
      match pending with
      | some high =>
        if isLowSurrogate n then readQuoted (pairedChar high n :: done) none sound rest
        else readQuoted done none false rest
      | none =>
        if isHighSurrogate n then readQuoted done (some n) sound rest
        else if isLowSurrogate n then readQuoted done none false rest
        else readQuoted (Char.ofNat n :: done) none sound rest
  | '\\' :: c :: rest =>
    match escapeLetter? c with
    | none => none
    | some c => readQuoted (c :: done) none (sound && pending.isNone) rest
  | c :: rest =>
    if c.toNat < 0x20 || c == '\\' then none
    else readQuoted (c :: done) none (sound && pending.isNone) rest

/-- Read the digits after a point, if there is a point: at least one of them. -/
def readFraction : List Char → Option (List Char × List Char)
  | '.' :: rest =>
    let (digits, rest) := rest.span isDigit
    if digits = [] then none else some (digits, rest)
  | cs => some ([], cs)

/-- Read an exponent, if there is one: a sign and at least one digit. -/
def readExponentPart : List Char → Option (Option (Bool × List Char) × List Char)
  | [] => some (none, [])
  | c :: rest =>
    if c = 'e' ∨ c = 'E' then
      let (negative, rest) := cutSign rest
      let (digits, rest) := rest.span isDigit
      if digits = [] then none else some (some (negative, digits), rest)
    else some (none, c :: rest)

/-- Read the digits before a point: zero alone, or digits of which the first is not zero. -/
def readWhole : List Char → Option (List Char × List Char)
  | [] => none
  | c :: rest =>
    let (digits, left) := (c :: rest).span isDigit
    if digits = [] ∨ (c = '0' ∧ digits ≠ ['0']) then none else some (digits, left)

/-- Read a number. -/
def readNumeral (cs : List Char) : Option (Numeral × List Char) := do
  let (negative, cs) := match cs with
    | '-' :: rest => (true, rest)
    | cs => (false, cs)
  let (whole, cs) ← readWhole cs
  let (fraction, cs) ← readFraction cs
  let (exponent, cs) ← readExponentPart cs
  return ({ negative, whole, fraction, exponent }, cs)

/-- Read a word and give what it means. -/
def readWord (word : List Char) (meaning : Tree) (cs : List Char) : Option (Tree × List Char) :=
  if word.isPrefixOf cs then some (meaning, cs.drop word.length) else none

mutual
/-- Read a tree.  `fuel` bounds the count of trees to read. -/
def readTreeWith : Nat → List Char → Option (Tree × List Char)
  | 0, _ => none
  | fuel + 1, cs =>
    match skipSpace cs with
    | [] => none
    | '"' :: rest => (readQuoted [] none true rest).map fun (s, rest) => (.string s, rest)
    | '[' :: rest =>
      match skipSpace rest with
      | ']' :: rest => some (.array [], rest)
      | rest => (readItemsWith fuel rest []).map fun (items, rest) => (.array items, rest)
    | '\x7b' :: rest =>
      match skipSpace rest with
      | '\x7d' :: rest => some (.object [], rest)
      | rest => (readMembersWith fuel rest []).map fun (members, rest) => (.object members, rest)
    | 't' :: rest => readWord ['r', 'u', 'e'] (.bool true) rest
    | 'f' :: rest => readWord ['a', 'l', 's', 'e'] (.bool false) rest
    | 'n' :: rest => readWord ['u', 'l', 'l'] .null rest
    | rest => (readNumeral rest).map fun (n, rest) => (.number n, rest)

/-- Read the items of an array up to its closing bracket.  `done` holds the items read so far in
reverse order. -/
def readItemsWith : Nat → List Char → List Tree → Option (List Tree × List Char)
  | 0, _, _ => none
  | fuel + 1, cs, done =>
    match readTreeWith fuel cs with
    | none => none
    | some (t, rest) =>
      match skipSpace rest with
      | ',' :: rest => readItemsWith fuel rest (t :: done)
      | ']' :: rest => some ((t :: done).reverse, rest)
      | _ => none

/-- Read the members of an object up to its closing brace.  `done` holds the members read so far
in reverse order. -/
def readMembersWith :
    Nat → List Char → List (Option String × Tree) → Option (List (Option String × Tree) × List Char)
  | 0, _, _ => none
  | fuel + 1, cs, done =>
    match skipSpace cs with
    | '"' :: rest =>
      match readQuoted [] none true rest with
      | none => none
      | some (key, rest) =>
        match skipSpace rest with
        | ':' :: rest =>
          match readTreeWith fuel rest with
          | none => none
          | some (t, rest) =>
            match skipSpace rest with
            | ',' :: rest => readMembersWith fuel rest ((key, t) :: done)
            | '\x7d' :: rest => some (((key, t) :: done).reverse, rest)
            | _ => none
        | _ => none
    | _ => none
end

/-- The tree at the start of a text and the characters after it. -/
def readTree (s : String) : Option (Tree × List Char) :=
  readTreeWith (s.toList.length + 1) s.toList

/-- The tree at the start of a text, whatever follows it. -/
def readFirstTree? (s : String) : Option Tree := (readTree s).map Prod.fst

/-- The tree of a text, which holds nothing else. -/
def readTree? (s : String) : Option Tree :=
  match readTree s with
  | some (t, rest) => if skipSpace rest = [] then some t else none
  | none => none

/-- The value at the start of a text, whatever follows it. -/
def readFirstValue? (s : String) : Option Value := (readFirstTree? s).bind Tree.value?

/-- The value of a text, which holds nothing else. -/
def readValue? (s : String) : Option Value := (readTree? s).bind Tree.value?

end EntityService.Json
