import EntityService.Text.Blank
import EntityService.Text.Case
import EntityService.Text.Script

/-!
# Sets of characters

The sets of characters that a pattern can name.

## Main definitions

* `CharSet` — a set of characters
* `CharSet.upToCase` — a set with all characters that differ from its members in case only
* `classOfLetter?` — the sets named by one letter, such as the digits
* `classOfWord?` — the sets of ASCII characters named by a word
* `property?` — the sets named by a property of characters
-/

namespace EntityService.Pattern

open EntityService.Text

/-- A set of characters. -/
abbrev CharSet := Char → Bool

namespace CharSet

/-- The characters from one to another. -/
def span (first last : Char) : CharSet := fun c => first ≤ c && c ≤ last

/-- One character. -/
def one (c : Char) : CharSet := fun d => d == c

/-- No character. -/
def empty : CharSet := fun _ => false

/-- The characters of one of two sets. -/
def union (s t : CharSet) : CharSet := fun c => s c || t c

/-- The characters of both sets. -/
def both (s t : CharSet) : CharSet := fun c => s c && t c

/-- The characters of the first set that are not in the second. -/
def without (s t : CharSet) : CharSet := fun c => s c && !t c

/-- The characters of exactly one of two sets. -/
def oneOf (s t : CharSet) : CharSet := fun c => s c != t c

/-- The characters that are not in a set. -/
def complement (s : CharSet) : CharSet := fun c => !s c

/-- The complement of a set if asked for. -/
def negatedIf (negated : Bool) (s : CharSet) : CharSet := if negated then s.complement else s

/-- A letter of ASCII in the other case. -/
def otherCase (c : Char) : Char := if c.isUpper then c.toLower else c.toUpper

/-- A set with all characters that differ from its members in case only. -/
def upToCase (unicode : Bool) (s : CharSet) : CharSet :=
  if unicode then fun c => (sameUpToCase c).any s else fun c => s c || s (otherCase c)

end CharSet

open CharSet

/-- The decimal digits. -/
def digitSet (unicode : Bool) : CharSet :=
  if unicode then fun c => category c.toNat == .decimalNumber else span '0' '9'

/-- White space. -/
def spaceSet (unicode : Bool) : CharSet :=
  if unicode then isBlank else fun c => c == ' ' || ('\t' ≤ c && c ≤ '\r')

/-- The characters of words. -/
def wordSet (unicode : Bool) : CharSet :=
  if unicode then fun c => isWordCharacter c.toNat else fun c => c.isAlphanum || c == '_'

/-- The set named by a letter; a capital letter names the complement. -/
def classOfLetter? (unicode : Bool) : Char → Option CharSet
  | 'd' => some (digitSet unicode)
  | 's' => some (spaceSet unicode)
  | 'w' => some (wordSet unicode)
  | 'D' => some (digitSet unicode).complement
  | 'S' => some (spaceSet unicode).complement
  | 'W' => some (wordSet unicode).complement
  | _ => none

/-- The set of ASCII characters named by a word. -/
def classOfWord? : String → Option CharSet
  | "alnum" => some Char.isAlphanum
  | "alpha" => some Char.isAlpha
  | "ascii" => some (span '\x00' '\x7f')
  | "blank" => some fun c => c == ' ' || c == '\t'
  | "cntrl" => some fun c => c.toNat < 0x20 || c == '\x7f'
  | "digit" => some Char.isDigit
  | "graph" => some (span '!' '~')
  | "lower" => some Char.isLower
  | "print" => some (span ' ' '~')
  | "punct" => some fun c => span '!' '~' c && !c.isAlphanum
  | "space" => some (spaceSet false)
  | "upper" => some Char.isUpper
  | "word" => some (wordSet false)
  | "xdigit" => some fun c => c.isDigit || span 'a' 'f' c || span 'A' 'F' c
  | _ => none

/-- The name of a property without separators, in lower case, and without a leading `is`. -/
def propertyName (name : List Char) : String :=
  let plain := (name.filter fun c => c.toNat < 0x80 && c ∉ [' ', '_', '-']).map Char.toLower
  match plain with
  | 'i' :: 's' :: rest => String.ofList (if rest = ['c'] then plain else rest)
  | _ => String.ofList plain

/-- The characters whose category's abbreviation starts with a letter. -/
def categoryGroup (letter : Char) : CharSet := fun c =>
  (category c.toNat).abbreviation.toList.head? == some letter

/-- The characters that satisfy a property with two values. -/
def binaryProperty? : String → Option CharSet
  | "alphabetic" | "alpha" => some fun c => isAlphabetic c.toNat
  | "uppercase" | "upper" => some isUppercase
  | "lowercase" | "lower" => some isLowercase
  | "cased" => some isCased
  | "caseignorable" | "ci" => some isCaseIgnorable
  | "whitespace" | "wspace" | "space" => some isBlank
  | "asciihexdigit" | "ahex" => classOfWord? "xdigit"
  | _ => none

/-- The characters of a category or of a group of categories. -/
def categoryProperty? (name : String) : Option CharSet :=
  match name with
  | "any" => some fun _ => true
  | "ascii" => some (span '\x00' '\x7f')
  | "assigned" => some fun c => category c.toNat != .unassigned
  | "l" | "letter" => some (categoryGroup 'l')
  | "lc" | "casedletter" => some fun c =>
      category c.toNat ∈ [Category.uppercaseLetter, .lowercaseLetter, .titlecaseLetter]
  | "m" | "mark" | "combiningmark" => some (categoryGroup 'm')
  | "n" | "number" => some (categoryGroup 'n')
  | "p" | "punctuation" | "punct" => some (categoryGroup 'p')
  | "s" | "symbol" => some (categoryGroup 's')
  | "z" | "separator" => some (categoryGroup 'z')
  | "c" | "other" => some (categoryGroup 'c')
  | "digit" => some (digitSet true)
  | "cntrl" => some fun c => category c.toNat == .control
  | _ =>
    (Category.all.find? fun k => name = k.abbreviation || name = k.longName).map fun k c =>
      category c.toNat == k

/-- The characters of a script. -/
def scriptProperty? (name : String) : Option CharSet :=
  (scripts.find? fun s => s.name == name).map fun s c => s.contains c.toNat

/-- The characters named by a property: one with two values, a category or a script. -/
def property? (name : List Char) : Option CharSet :=
  let plain := propertyName name
  let binary := if plain ∈ ["cf", "sc", "lc"] then none else binaryProperty? plain
  binary <|> categoryProperty? plain <|> scriptProperty? plain

/-- The characters named by the value of a property. -/
def propertyValue? (name value : List Char) : Option CharSet :=
  match propertyName name with
  | "gc" | "generalcategory" => categoryProperty? (propertyName value)
  | "sc" | "script" => scriptProperty? (propertyName value)
  | _ => none

end EntityService.Pattern
