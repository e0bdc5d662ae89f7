import EntityService.Json.Writer
import EntityService.Number.Layout
import EntityService.Text.Split

/-!
# Violations

The ways in which data break the rules of an entity.

## Main definitions

* `Violation` — a broken rule
* `Violation.message` — what is said about it
-/

namespace EntityService.Validation

open EntityService.Json EntityService.Number

/-- A broken rule, with the column it is about. -/
inductive Violation where
  | missing (column : String)
  | isNull (column : String)
  | malformed (column format : String)
  | tooLong (column : String) (most : Nat)
  | tooShort (column : String) (least : Nat)
  | unreadablePattern (column : String)
  | unmatched (column : String)
  | notAllowed (column : String) (allowed : List Value)
  | tooSmall (column : String) (least : Double)
  | tooLarge (column : String) (most : Double)
  deriving Repr

namespace Violation

/-- The count of allowed values that are listed. -/
def listedValues : Nat := 5

/-- What is said about a broken rule. -/
def message : Violation → String
  | missing column => column ++ " is required"
  | isNull column => column ++ " cannot be null"
  | malformed column format => column ++ " must be a valid " ++ format
  | tooLong column most => column ++ " must be at most " ++ toString most ++ " characters"
  | tooShort column least => column ++ " must be at least " ++ toString least ++ " characters"
  | unreadablePattern column => "invalid pattern for " ++ column
  | unmatched column => column ++ " does not match required pattern"
  | notAllowed column allowed =>
    column ++ " must be one of: " ++
      Text.joined ", " ((allowed.take listedValues).map Value.text)
  | tooSmall column least => column ++ " must be at least " ++ Layout.plain.text least
  | tooLarge column most => column ++ " must be at most " ++ Layout.plain.text most

end Violation

end EntityService.Validation
