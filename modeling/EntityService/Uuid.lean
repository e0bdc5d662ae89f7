import EntityService.Text.Split

/-!
# Identifiers of 128 bits

## Main definitions

* `Uuid` — 32 hexadecimal digits
* `Uuid.read?` — the identifier a text denotes
* `Uuid.text` — the text of an identifier

## Design notes

The digits may be written in one row, or in five groups with hyphens between them; in groups they
may also stand between braces or after `urn:uuid:`.  Letters may have any case.
-/

namespace EntityService

/-- An identifier, given by its hexadecimal digits in lower case. -/
structure Uuid where
  digits : List Char
  deriving DecidableEq, Repr

namespace Uuid

/-- The hexadecimal digits, with letters in both cases. -/
def isHexDigit (c : Char) : Bool :=
  ('0' ≤ c && c ≤ '9') || ('a' ≤ c && c ≤ 'f') || ('A' ≤ c && c ≤ 'F')

/-- The identifier of a list of hexadecimal digits. -/
def ofDigits? (cs : List Char) : Option Uuid :=
  if cs.length = 32 && cs.all isHexDigit then some ⟨cs.map Char.toLower⟩ else none

/-- The identifier written in five groups. -/
def ofGroups? (cs : List Char) : Option Uuid :=
  let groups := cs.splitOn '-'
  if groups.map List.length = [8, 4, 4, 4, 12] then ofDigits? groups.flatten else none

/-- What stands between braces. -/
def withoutBraces? : List Char → Option (List Char)
  | '\x7b' :: rest => if rest.getLast? = some '\x7d' then some rest.dropLast else none
  | _ => none

/-- What follows `urn:uuid:`. -/
def afterScheme? (cs : List Char) : Option (List Char) :=
  let scheme := "urn:uuid:".toList
  if (cs.take scheme.length).map Char.toLower = scheme then some (cs.drop scheme.length) else none

/-- The identifier a text denotes. -/
def read? (s : String) : Option Uuid :=
  let cs := s.toList
  ofDigits? cs <|> ofGroups? cs <|> (withoutBraces? cs).bind ofGroups? <|>
    (afterScheme? cs).bind ofGroups?

/-- The text of an identifier: five groups with hyphens between them. -/
def text (u : Uuid) : String :=
  let part := fun start length => String.ofList ((u.digits.drop start).take length)
  Text.joined "-" [part 0 8, part 8 4, part 12 4, part 16 4, part 20 12]

end Uuid

end EntityService
