import EntityService.Json.Value
import EntityService.Text.Split

/-!
# Writing values

The compact text of a value: no white space, members in the order of their keys.

## Main definitions

* `quoted` — a text between quotes, with escapes
* `Value.text` — the text of a value
* `Value.plainText` — the text of a value in which a top-level string stands without quotes

## Design notes

Quotes, backslashes and control characters are escaped, all other characters stand for themselves.
The control characters with a letter of their own use it, the others four hexadecimal digits.
-/

namespace EntityService.Json

/-- The escape of a control character by its code. -/
def escapedControl (c : Char) : List Char :=
  let digits := Nat.toDigits 16 c.toNat
  ['\\', 'u'] ++ List.replicate (4 - digits.length) '0' ++ digits

/-- A character as it stands between quotes. -/
def escapedChar (c : Char) : List Char :=
  match c with
  | '"' => ['\\', '"']
  | '\\' => ['\\', '\\']
  | '\x08' => ['\\', 'b']
  | '\x0c' => ['\\', 'f']
  | '\n' => ['\\', 'n']
  | '\r' => ['\\', 'r']
  | '\t' => ['\\', 't']
  | c => if c.toNat < 0x20 then escapedControl c else [c]

/-- A text between quotes. -/
def quoted (s : String) : String :=
  "\"" ++ String.ofList (s.toList.flatMap escapedChar) ++ "\""

namespace Value

mutual
/-- The text of a value. -/
def text : Value → String
  | null => "null"
  | bool b => if b then "true" else "false"
  | number n => n.text
  | string s => quoted s
  | array items => "[" ++ Text.joined "," (itemTexts items) ++ "]"
  | object members => "\x7b" ++ Text.joined "," (memberTexts members) ++ "\x7d"

/-- The texts of the items of an array. -/
def itemTexts : List Value → List String
  | [] => []
  | v :: rest => text v :: itemTexts rest

/-- The texts of the members of an object. -/
def memberTexts : List (String × Value) → List String
  | [] => []
  | (key, v) :: rest => (quoted key ++ ":" ++ text v) :: memberTexts rest
end

/-- The text of a value; a string is its own text. -/
def plainText : Value → String
  | string s => s
  | v => v.text

end Value

end EntityService.Json
