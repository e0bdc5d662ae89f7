import EntityService.Text.Blank
import EntityService.Text.Case

/-!
# Comparisons

The operators that compare a column with a value.

## Main definitions

* `Comparison` — the seven operators
* `Comparison.sql` — the spelling in statements
* `Comparison.read?` — the operator of a text
* `Comparison.refusal` — the message for a text that is no operator
-/

namespace EntityService.Query

/-- An operator that compares a column with a value. -/
inductive Comparison where
  | eq | notEq | gt | lt | gte | lte | like
  deriving DecidableEq, Repr

namespace Comparison

/-- The spelling of an operator in statements. -/
def sql : Comparison → String
  | eq => "="
  | notEq => "!="
  | gt => ">"
  | lt => "<"
  | gte => ">="
  | lte => "<="
  | like => "LIKE"

/-- All operators. -/
def all : List Comparison := [eq, notEq, gt, lt, gte, lte, like]

/-- A text without the white space around it and in upper case, as operators are read. -/
def normalized (s : String) : String := Text.uppercase (Text.trim s)

/-- The operator of a text: its spelling in statements in any case, or one of the two other
spellings `==` and `<>`. -/
def read? (s : String) : Option Comparison :=
  let word := normalized s
  if word = "==" then some eq
  else if word = "<>" then some notEq
  else all.find? fun c => c.sql == word

/-- The message for a text that is no operator. -/
def refusal (s : String) : String := "unsupported operator: " ++ normalized s

end Comparison

end EntityService.Query
