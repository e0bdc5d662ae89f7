import EntityService.Model.Plan
import EntityService.Sql.Statement
import EntityService.Text.Split

/-!
# Columns in statements

References to columns, the columns of a result and parameters that are compared with columns.

## Main definitions

* `column` — a column of the rows known by an alias
* `operand`, `placeholder` — the two sides of a comparison
* `output` — a column of a result
* `projection` — the columns of a result
-/

namespace EntityService.Sql

open EntityService.Json EntityService.Model

/-- The alias of the rows a statement is about. -/
def mainAlias : String := "main"

/-- The table of an entity with its schema. -/
def table (e : Entity) : Statement := [.name e.schema, .words ".", .name e.table]

/-- A column of the rows known by an alias. -/
def column (rowAlias name : String) : Statement := [.words (rowAlias ++ "."), .name name]

/-- The column side of a comparison.  A column that is not declared is compared as text. -/
def operand (e : Entity) (rowAlias name : String) : Statement :=
  column rowAlias name ++ if e.declares name then [] else words "::text"

/-- The value side of a comparison, or a value to write.  It is converted to the type of a declared
column. -/
def placeholder (e : Entity) (name : String) (value : Value) : Statement :=
  [.param value ((e.column? name).map (·.pgType))]

/-- Values of types of the user and exact numbers are given as text. -/
def shownAsText (pgType : String) : Bool := Text.holds pgType "." || pgType == "numeric"

/-- A column of a result under its own name. -/
def output (rowAlias name : String) (c : Option Column) : Statement :=
  column rowAlias name ++
    words (if shownAsText ((c.map (·.pgType)).getD "") then "::text AS " else " AS ") ++
    [.name name]

/-- The columns of a result: those that are named, or all declared ones, or the star when none are
declared. -/
def projection (e : Entity) (rowAlias : String) (columns : List String) : List Statement :=
  if !selectsAll columns then columns.map fun name => output rowAlias name (e.column? name)
  else if e.columns.isEmpty then [words (rowAlias ++ ".*")]
  else e.columns.map fun c => output rowAlias c.name (some c)

end EntityService.Sql
