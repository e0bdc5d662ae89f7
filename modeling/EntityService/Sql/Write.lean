import EntityService.Sql.Column

/-!
# Statements that write

The statements that add a row and change a row.

## Main definitions

* `Assignment` — a column and what is written to it
* `insertion`, `change` — the assignments of an added and of a changed row
* `insert`, `update` — the statements

## Design notes

A timestamp that the data do not give is set by the clock of the database.  A change without
assignments reads the row instead.
-/

namespace EntityService.Sql

open EntityService.Json EntityService.Model

/-- A column and the value written to it; without a value it is set by the clock. -/
structure Assignment where
  column : String
  value : Option Value
  deriving Repr

/-- The right side of an assignment. -/
def Assignment.source (e : Entity) (a : Assignment) : Statement :=
  match a.value with
  | some v => placeholder e a.column v
  | none => words "NOW()"

/-- The assignments of the given data. -/
def given (data : Record) : List Assignment := data.map fun (key, value) => ⟨key, some value⟩

/-- The assignments of an added row: the data that are written, and the timestamps that they do not
give. -/
def insertion (e : Entity) (data : Record) : List Assignment :=
  given (e.writable data) ++
    ([e.createdAt, e.updatedAt].filter fun c => e.stamps c data).map fun c => ⟨c, none⟩

/-- The assignments of a changed row: the data that are written, without the primary key, and the
timestamp of changes if it is to be set and the data do not give it. -/
def change (e : Entity) (data : Record) (touch : Bool) : List Assignment :=
  given (Record.keep (e.writable data) fun key => key != e.primaryKey) ++
    if touch && e.stamps e.updatedAt data then [⟨e.updatedAt, none⟩] else []

/-- The columns of the row that a statement gives back. -/
def returned (e : Entity) : Statement := listed ", " (projection e mainAlias [])

/-- Add a row and give it back. -/
def insert (e : Entity) (data : Record) : Statement :=
  words "INSERT INTO " ++ table e ++ words (" AS " ++ mainAlias) ++
    (match insertion e data with
      | [] => words " DEFAULT VALUES"
      | assignments =>
        words " (" ++ listed ", " (assignments.map fun a => [.name a.column]) ++
          words ") VALUES (" ++ listed ", " (assignments.map (Assignment.source e)) ++ words ")") ++
    words " RETURNING " ++ returned e

/-- Change the row with a key and give it back. -/
def update (e : Entity) (id : Value) (data : Record) (touch : Bool) : Statement :=
  let key := column mainAlias e.primaryKey ++ words " = " ++ placeholder e e.primaryKey id
  match change e data touch with
  | [] =>
    words "SELECT " ++ returned e ++ words " FROM " ++ table e ++
      words (" " ++ mainAlias ++ " WHERE ") ++ key
  | assignments =>
    words "UPDATE " ++ table e ++ words (" AS " ++ mainAlias ++ " SET ") ++
      listed ", " (assignments.map fun a => [.name a.column, .words " = "] ++ a.source e) ++
      words " WHERE " ++ key ++ words " RETURNING " ++ returned e

end EntityService.Sql
