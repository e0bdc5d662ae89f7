import EntityService.Text.Blank
import EntityService.Text.Case
import EntityService.Text.Split

/-!
# Names

The two spellings of a relation name: `createdByUser` inside the service and `created_by_user`
outside.

## Main definitions

* `camelCase` — the inside spelling of a name with delimiters
* `snakeCase` — the outside spelling of a name with capitals
* `camelPath` — the inside spelling of a dotted path
* `countKey` — the key under which the count of a relation is shown
-/

namespace EntityService.Naming

open EntityService.Text

/-- The characters that separate the words of a name. -/
def isDelimiter (c : Char) : Bool := c == '_' || c == '-' || c == ' '

/-- The inside spelling of what is left of a name.  `started` tells that a character has been
written, `capital` that the next one begins a later word. -/
def camelFrom (started capital : Bool) : List Char → List Char
  | [] => []
  | c :: rest =>
    if isDelimiter c then camelFrom started started rest
    else if !started then lowerChars c ++ camelFrom true false rest
    else if capital then upperChars c ++ camelFrom true false rest
    else c :: camelFrom true false rest

/-- The inside spelling of a name: delimiters go, the first character is put in lower case and the
first character of each later word in upper case. -/
def camelCase (s : String) : String :=
  String.ofList (camelFrom false false s.toList)

/-- The outside spelling of what is left of a name.  `apart` tells that something that does not end
in an underscore has been written, from which a capital is set apart. -/
def snakeFrom (apart : Bool) : List Char → List Char
  | [] => []
  | c :: rest =>
    if isUppercase c then
      (if apart then ['_'] else []) ++ lowerChars c ++ snakeFrom true rest
    else c :: snakeFrom (c != '_') rest

/-- The outside spelling of a name: a capital is put in lower case and set apart from what comes
before it by an underscore. -/
def snakeCase (s : String) : String :=
  String.ofList (snakeFrom false s.toList)

/-- The inside spelling of a dotted path, segment by segment. -/
def camelPath (path : String) : String :=
  joined "." ((pieces '.' path).map fun segment => camelCase (trim segment))

/-- The key under which the count of a relation is shown. -/
def countKey (relation : String) : String := snakeCase relation ++ "_count"

end EntityService.Naming
