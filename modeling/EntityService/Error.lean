import EntityService.Validation.Violation

/-!
# Errors

The ways in which an operation on the rows of a service can fail.

## Main definitions

* `Error` — something is not there, data break a rule, a request is wrong, or the database fails
* `Error.message` — what is said about an error
-/

namespace EntityService

open EntityService.Json EntityService.Validation

/-- Something that is not there: an entity, by its id or its path segment, a row that matches a
query, or a row with a key. -/
inductive Absence where
  | entity (id : String)
  | segment (segment : String)
  | anyRow (entity : String)
  | row (entity : String) (key : Value)
  deriving Repr

/-- What is said about something that is not there. -/
def Absence.message : Absence → String
  | entity id => "entity " ++ id
  | segment s => s
  | anyRow id => "no " ++ id ++ " matches"
  | row id key => id ++ " " ++ key.text

/-- Something that is wrong with a request. -/
inductive Fault where
  | uuid (text : String)
  | key (text : String)
  | notAnObject
  | notAnArray
  | tooManyItems (most : Nat)
  | forbidden (operation segment : String)
  | malformedBody
  | noKeys
  | seedRow (entity : String)
  deriving DecidableEq, Repr

/-- What is said about a wrong request. -/
def Fault.message : Fault → String
  | uuid text => "invalid uuid: " ++ text
  | key text => "invalid id: " ++ text
  | notAnObject => "body must be a JSON object"
  | notAnArray => "body must be a JSON array"
  | tooManyItems most => "bulk create limited to " ++ toString most ++ " items"
  | forbidden operation segment => operation ++ " not allowed on " ++ segment
  | malformedBody => "invalid JSON body"
  | noKeys => "body must carry an \x60ids\x60 array"
  | seedRow entity => "seed rows for " ++ entity ++ " must be objects"

/-- A failure of the database: it cannot be reached, it refuses a statement with a code and a text,
or its reply does not hold what the statement asked for. -/
inductive DatabaseError where
  | closed
  | refused (code text : String)
  | noRow
  | noColumn (name : String)
  | mismatchedType (name pgType : String)
  | unexpectedNull (name : String)
  deriving DecidableEq, Repr

namespace DatabaseError

/-- What is said about a failure of the database. -/
def message : DatabaseError → String
  | closed => "attempted to acquire a connection on a closed pool"
  | refused _ text => "error returned from database: " ++ text
  | noRow => "no rows returned by a query that expected to return at least one row"
  | noColumn name => "no column found for name: " ++ name
  | mismatchedType name pgType =>
    "error occurred while decoding column \"" ++ name ++
      "\": mismatched types; Rust type \x60i64\x60 (as SQL type \x60INT8\x60) is not compatible " ++
      "with SQL type \x60" ++ pgType ++ "\x60"
  | unexpectedNull name =>
    "error occurred while decoding column \"" ++ name ++
      "\": unexpected null; try decoding as an \x60Option\x60"

/-- The database refuses a row because of a unique column or a check. -/
def isRefusedRow : DatabaseError → Bool
  | refused code _ => code == "23505" || code == "23514"
  | _ => false

end DatabaseError

/-- A failure of an operation. -/
inductive Error where
  | notFound (what : Absence)
  | invalid (violation : Violation)
  | badRequest (fault : Fault)
  | database (cause : DatabaseError)
  deriving Repr

/-- What is said about an error. -/
def Error.message : Error → String
  | notFound what => "not found: " ++ what.message
  | invalid violation => "validation: " ++ violation.message
  | badRequest fault => "bad request: " ++ fault.message
  | database cause => "database: " ++ cause.message

end EntityService
