import EntityService.Json.Writer

/-!
# Parameter texts

Every parameter of a statement is sent as a text, or as null.

## Main definitions

* `bindText` — the text of a parameter
-/

namespace EntityService.Sql

open EntityService.Json

/-- The text a parameter is sent as: a string as it is, null as nothing, any other value as its
text. -/
def bindText (v : Value) : Option String :=
  if v.isNull then none else some v.plainText

end EntityService.Sql
