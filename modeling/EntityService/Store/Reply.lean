import EntityService.Error
import EntityService.Json.Reader
import EntityService.Number.Single
import EntityService.Time.Instant
import EntityService.Uuid

/-!
# Replies of a database

What a database sends back for a statement, and the values of its cells.

## Main definitions

* `Reply` — rows of typed columns with a count of affected rows, or a refusal
* `cellValue` — the value of a cell by the type of its column
* `Reply.Rows.values` — the rows as objects
* `Reply.Rows.countOf` — the count in the first row

## Design notes

A cell whose type is not known, or that does not hold what its type says, has the value null.  Of
several columns with one name the last one counts.
-/

namespace EntityService.Store

open EntityService.Json EntityService.Number

namespace Reply

/-- Rows of cells under columns with their types, and a count of affected rows. -/
structure Rows where
  columns : List (String × String) := []
  cells : List (List Value) := []
  affected : Nat := 0
  deriving Repr

end Reply

/-- What a database sends back for a statement. -/
inductive Reply where
  | rows (r : Reply.Rows)
  | refused (code text : String)
  deriving Repr

/-- A number as a double of single precision, if it is finite. -/
def singleValue (n : Json.Number) : Value :=
  let x := n.toDouble.toSingle
  if x.isFinite then .number (.real x) else .null

/-- A number as a double, if it is finite. -/
def doubleValue (n : Json.Number) : Value :=
  let x := n.toDouble
  if x.isFinite then .number (.real x) else .null

/-- The value of a cell by the type of its column. -/
def cellValue (type : String) (cell : Value) : Value :=
  match type, cell with
  | "bool", .bool b => .bool b
  | "int2", .number (.integer n) => .ofInt n
  | "int4", .number (.integer n) => .ofInt n
  | "int8", .number (.integer n) => .ofInt n
  | "float4", .number n => singleValue n
  | "float8", .number n => doubleValue n
  | "uuid", .string s => .ofText? ((Uuid.read? s).map Uuid.text)
  | "timestamptz", .number (.integer n) => .string (Time.instantText n ++ "+00:00")
  | "timestamp", .number (.integer n) => .string (Time.instantText n)
  | "date", .number (.integer n) => .string (Time.Date.ofDays n).text
  | "text", .string s => .string s
  | "varchar", .string s => .string s
  | "bpchar", .string s => .string s
  | "name", .string s => .string s
  | "unknown", .string s => .string s
  | "json", .string s => (readValue? s).getD .null
  | "jsonb", .string s => (readValue? s).getD .null
  | _, _ => .null

namespace Reply.Rows

/-- The rows as objects. -/
def values (r : Rows) : List Value :=
  r.cells.map fun cells =>
    .ofMembers ((r.columns.zip cells).map fun ((name, type), cell) => (name, cellValue type cell))

/-- The name of a type in the words of the database. -/
def typeTitle (type : String) : String :=
  if type = "bpchar" then "CHAR" else type.toUpper

/-- The cell of a row under a name, with its type. -/
def cell? (r : Rows) (cells : List Value) (name : String) : Option (String × Value) :=
  ((r.columns.zip cells).reverse.find? fun ((n, _), _) => n == name).map fun ((_, type), cell) =>
    (type, cell)

/-- The count that the first row holds under the name `count`.  A negative count is zero. -/
def countOf (r : Rows) : Except DatabaseError Nat :=
  match r.cells with
  | [] => .error .noRow
  | cells :: _ =>
    match r.cell? cells "count" with
    | none => .error (.noColumn "count")
    | some (_, .null) => .error (.unexpectedNull "count")
    | some ("int8", .number (.integer n)) => .ok n.toNat
    | some (type, _) => .error (.mismatchedType "count" (typeTitle type))

end Reply.Rows

end EntityService.Store
