import EntityService.Json.Reader
import EntityService.Pattern.Search
import EntityService.Text.Split

/-!
# Escapes in patterns

What a backslash and the characters after it stand for.

## Main definitions

* `Flags` — the ways in which a pattern can be read
* `Atom` — what one character or one escape stands for
* `readEscape?` — the atom of an escape
* `skipLayout` — a pattern without the white space and comments at its start

## Design notes

Without the flag `unicode` the classes hold ASCII characters only, and a class that would hold parts
of other characters is refused.
-/

namespace EntityService.Pattern

open EntityService.Text

/-- The ways in which a pattern can be read. -/
structure Flags where
  ignoreCase : Bool := false
  multiLine : Bool := false
  dotAll : Bool := false
  unicode : Bool := true
  carriageReturns : Bool := false
  verbose : Bool := false
  deriving DecidableEq, Repr

/-- What one character or one escape stands for: a character, a set of them or a condition on a
place. -/
inductive Atom where
  | literal (c : Char)
  | set (s : CharSet)
  | place (holds : Option Char → Option Char → Bool)

mutual
/-- What follows white space and comments. -/
def skipSpaces : List Char → List Char
  | [] => []
  | c :: rest =>
    if isBlank c then skipSpaces rest
    else if c = '#' then skipComment rest
    else c :: rest

/-- What follows the rest of a comment, which ends with its line, and more white space. -/
def skipComment : List Char → List Char
  | [] => []
  | c :: rest => if c = '\n' then skipSpaces rest else skipComment rest
end

/-- What follows white space and comments if they do not count. -/
def skipLayout (flags : Flags) (cs : List Char) : List Char :=
  if flags.verbose then skipSpaces cs else cs

/-- The value of hexadecimal digits. -/
def hexValue (digits : List Nat) : Nat := digits.foldl (fun n d => 16 * n + d) 0

/-- The character with a code point, if there is one. -/
def charOfCode? (code : Nat) : Option Char :=
  if code.isValidChar then some (Char.ofNat code) else none

/-- The values of hexadecimal digits and what follows them: as many digits as asked for, or those
between braces. -/
def readHexDigits? (count : Nat) : List Char → Option (List Nat × List Char)
  | '\x7b' :: rest =>
    match rest.span (· ≠ '\x7d') with
    | (digits, _ :: after) => (digits.mapM Json.hexDigit?).map fun digits => (digits, after)
    | _ => none
  | cs =>
    if cs.length < count then none
    else ((cs.take count).mapM Json.hexDigit?).map fun digits => (digits, cs.drop count)

/-- The character given by its code point after `x`, `u` or `U`. -/
def readCode? (flags : Flags) (count : Nat) (cs : List Char) : Option (Atom × List Char) := do
  let (digits, after) ← readHexDigits? count (skipLayout flags cs)
  let c ← charOfCode? (hexValue digits)
  if digits.isEmpty || (!flags.unicode && 0x80 ≤ c.toNat && c.toNat < 0x100) then none
  else some (.literal c, after)

/-- The set of a property and whether it is to be negated: a name, or a name and a value with a sign
of equality, a sign of inequality or a colon between them. -/
def propertySet? (text : List Char) : Option (CharSet × Bool) :=
  match cutOnceChars '=' text <|> cutOnceChars ':' text with
  | some (name, value) =>
    if name.getLast? = some '!' then
      (propertyValue? name.dropLast value).map fun set => (set, true)
    else (propertyValue? name value).map fun set => (set, false)
  | none => (property? text).map fun set => (set, false)

/-- The set of a property after `p` or `P`. -/
def readProperty? (flags : Flags) (negated : Bool) (cs : List Char) :
    Option (Atom × List Char) := do
  let (text, after) ← match skipLayout flags cs with
    | '\x7b' :: rest =>
      match rest.span (· ≠ '\x7d') with
      | (name, _ :: after) => some (name, after)
      | _ => none
    | '\\' :: _ => none
    | c :: rest => some ([c], rest)
    | [] => none
  let (set, differs) ← propertySet? text
  if !flags.unicode then none
  else
    let whole := if flags.ignoreCase then set.upToCase true else set
    some (.set (CharSet.negatedIf (negated != differs) whole), after)

/-- The class named by a letter. -/
def classAtom? (flags : Flags) (letter : Char) : Option Atom :=
  if !flags.unicode && letter.isUpper then none
  else (classOfLetter? flags.unicode letter).map .set

/-- The sides of a place: the character before it and the character after it belong to a word. -/
def wordSides (flags : Flags) (before after : Option Char) : Bool × Bool :=
  (before.any (wordSet flags.unicode), after.any (wordSet flags.unicode))

/-- Conditions on the sides of a place, by their names. -/
def wordPlace? (flags : Flags) (name : String) : Option Atom :=
  let test := fun (f : Bool × Bool → Bool) =>
    some (Atom.place fun before after => f (wordSides flags before after))
  match name with
  | "boundary" => test fun (before, after) => before != after
  | "inside" => test fun (before, after) => before == after
  | "start" => test fun (before, after) => !before && after
  | "end" => test fun (before, after) => before && !after
  | "start-half" => test fun (before, _) => !before
  | "end-half" => test fun (_, after) => !after
  | _ => none

/-- The condition after `b`, which may have a name between braces. -/
def readBoundary? (flags : Flags) (cs : List Char) : Option (Atom × List Char) :=
  let plain := (wordPlace? flags "boundary").map fun atom => (atom, cs)
  match cs with
  | '\x7b' :: rest =>
    match skipLayout flags rest with
    | [] => none
    | c :: rest =>
      let isNameChar := fun (c : Char) => c.isAlpha || c == '-'
      if !isNameChar c then plain
      else
        match (c :: rest).span isNameChar with
        | (name, '\x7d' :: after) =>
          (wordPlace? flags (String.ofList name)).map fun atom => (atom, after)
        | _ => none
  | _ => plain

/-- The characters of ASCII that a backslash takes the meaning from. -/
def isPlainAfterBackslash (c : Char) : Bool :=
  c.toNat < 0x80 && !c.isAlphanum && c != '<' && c != '>'

/-- The atom of an escape, given by what follows the backslash. -/
def readEscape? (flags : Flags) : List Char → Option (Atom × List Char)
  | [] => none
  | c :: rest =>
    match c with
    | 'x' => readCode? flags 2 rest
    | 'u' => readCode? flags 4 rest
    | 'U' => readCode? flags 8 rest
    | 'p' => readProperty? flags false rest
    | 'P' => readProperty? flags true rest
    | 'a' => some (.literal '\x07', rest)
    | 'f' => some (.literal '\x0c', rest)
    | 't' => some (.literal '\t', rest)
    | 'n' => some (.literal '\n', rest)
    | 'r' => some (.literal '\r', rest)
    | 'v' => some (.literal '\x0b', rest)
    | 'A' => some (.place fun before _ => before.isNone, rest)
    | 'z' => some (.place fun _ after => after.isNone, rest)
    | 'b' => readBoundary? flags rest
    | 'B' => (wordPlace? flags "inside").map fun atom => (atom, rest)
    | '<' => (wordPlace? flags "start").map fun atom => (atom, rest)
    | '>' => (wordPlace? flags "end").map fun atom => (atom, rest)
    | _ =>
      if isPlainAfterBackslash c then some (.literal c, rest)
      else (classAtom? flags c).map fun atom => (atom, rest)

end EntityService.Pattern
