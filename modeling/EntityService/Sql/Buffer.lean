import EntityService.Sql.Query
import EntityService.Sql.Write

/-!
# Statements as they are built

A statement is built over a buffer.  A value is put behind the parameters that are already there,
and the text is put together around the number that the value gets.

## Main definitions

* `Buffer` — the text and the parameters of a statement
* `Building` — steps that put values into a buffer
* `pushParam`, `pushValue` — put a value into the buffer
* `Buffer.select`, `Buffer.count`, `Buffer.delete` — the statements of plans
* `Buffer.insert`, `Buffer.update` — the statements that write

## Design notes

A placeholder carries the number that its value got when it was put into the buffer.  Where it
stands in the text is another matter: nothing here keeps the order of the text and that of the
buffer together.  Parts without values do not touch the buffer, and are written by `Statement.text`.

The numbers of parameters have 32 bits.  Their addition is checked: where a value gets no number the
steps fail, and there is no statement.
-/

namespace EntityService.Sql

open EntityService.Json EntityService.Model EntityService.Query

/-- The text of a statement and its parameters. -/
structure Buffer where
  sql : String
  params : List Value
  deriving Repr

/-- What the numbers of parameters are less than: they have 32 bits. -/
def numberBound : Nat := 0x100000000

/-- Steps that put values into a buffer, or fail. -/
abbrev Building := StateT Buffer Option

namespace Buffer

/-- The buffer to begin with. -/
def empty : Buffer := ⟨"", []⟩

/-- Put a value behind the parameters and give its number. -/
def pushParam (value : Value) : Building Nat := fun b =>
  let number := b.params.length % numberBound + 1
  if number < numberBound then some (number, { b with params := b.params ++ [value] }) else none

/-- Put a value for a column into the buffer and give its placeholder, which converts it to the type
of a declared column. -/
def pushValue (e : Entity) (name : String) (value : Value) : Building String := do
  let number ← pushParam value
  return match e.column? name with
    | some c => "$" ++ toString number ++ "::" ++ c.pgType
    | none => "$" ++ toString number

/-- What the steps build from an empty buffer, with the text that they give. -/
def finish (build : Building String) : Option Buffer :=
  (build.run empty).map fun (sql, b) => { b with sql }

/-! ### Names -/

/-- The table of an entity with its schema. -/
def tableText (e : Entity) : String := quotedName e.schema ++ "." ++ quotedName e.table

/-- A column of the rows known by an alias. -/
def columnText (rowAlias name : String) : String := rowAlias ++ "." ++ quotedName name

/-- The column side of a comparison.  A column that is not declared is compared as text. -/
def operandText (e : Entity) (rowAlias name : String) : String :=
  if e.declares name then columnText rowAlias name else columnText rowAlias name ++ "::text"

/-! ### Plans -/

/-- The condition of a filter on the rows known by an alias. -/
def conditionText (e : Entity) (rowAlias : String) : Call → Building String
  | .compare name .eq .null => return columnText rowAlias name ++ " IS NULL"
  | .compare name .notEq .null => return columnText rowAlias name ++ " IS NOT NULL"
  | .compare name .like value => do
    let number ← pushParam value
    return columnText rowAlias name ++ "::text LIKE $" ++ toString number
  | .compare name op value => do
    let right ← pushValue e name value
    return operandText e rowAlias name ++ " " ++ op.sql ++ " " ++ right
  | .oneOf _ [] negated => return if negated then "TRUE" else "FALSE"
  | .oneOf name values negated => do
    let right ← values.mapM (pushValue e name)
    return operandText e rowAlias name ++ " " ++ (if negated then "NOT " else "") ++ "IN (" ++
      Text.joined ", " right ++ ")"
  | .nullness name isNull =>
    return columnText rowAlias name ++ " IS " ++ (if isNull then "" else "NOT ") ++ "NULL"
  | _ => return ""

/-- The conditions of a plan, all of which have to hold. -/
def whereText (p : Plan) : Building String := do
  let parts ← p.calls.filters.mapM (conditionText p.entity mainAlias)
  return if parts.isEmpty then "" else " WHERE " ++ Text.joined " AND " parts

/-- The steps for the rows of a plan.  A window of limit and offset stands in place of the plan's
own limit. -/
def selectText (m : Model) (p : Plan) (columns : List String) (window : Option (Nat × Nat)) :
    Building String := do
  let (loads, used) := subqueries mainAlias 0 (relationForest m p.entity p.calls.relations)
  let counts := countSubqueries m p.entity used p.calls.counts
  let outputs := (projection p.entity mainAlias columns ++ loads ++ counts).map Statement.text
  let conditions ← whereText p
  let limit := match window with
    | some (n, _) => some n
    | none => p.calls.limit?
  return "SELECT " ++ Text.joined ", " outputs ++ " FROM " ++ tableText p.entity ++ " " ++
    mainAlias ++ conditions ++ (orderPart p).text ++ (limitPart limit).text ++
    (offsetPart (window.map Prod.snd)).text

/-- The rows of a plan, with relations and counts. -/
def select (m : Model) (p : Plan) (columns : List String) (window : Option (Nat × Nat)) :
    Option Buffer :=
  finish (selectText m p columns window)

/-- The steps for the count of the rows of a plan. -/
def countText (p : Plan) : Building String := do
  let conditions ← whereText p
  return "SELECT COUNT(*) AS \"count\" FROM " ++ tableText p.entity ++ " " ++ mainAlias ++
    conditions

/-- The count of the rows of a plan, without regard to its limit. -/
def count (p : Plan) : Option Buffer := finish (countText p)

/-- The steps for the removal of the rows of a plan. -/
def deleteText (p : Plan) : Building String := do
  let conditions ← whereText p
  return match p.calls.limit? with
    | some limit =>
      "DELETE FROM " ++ tableText p.entity ++ " WHERE " ++ quotedName p.entity.primaryKey ++
        " IN (SELECT " ++ columnText mainAlias p.entity.primaryKey ++ " FROM " ++
        tableText p.entity ++ " " ++ mainAlias ++ conditions ++ (orderPart p).text ++
        (limitPart (some limit)).text ++ ")"
    | none => "DELETE FROM " ++ tableText p.entity ++ " AS " ++ mainAlias ++ conditions

/-- The removal of the rows of a plan.  A limit is put on the primary keys of the rows. -/
def delete (p : Plan) : Option Buffer := finish (deleteText p)

/-! ### Data -/

/-- The columns of the row that a statement gives back. -/
def returningText (e : Entity) : String :=
  Text.joined ", " ((projection e mainAlias []).map Statement.text)

/-- The steps for a new row: a value is put into the buffer for each member of the data that is
written, and none for a timestamp that the clock sets. -/
def insertText (e : Entity) (data : Record) : Building String := do
  let written := e.writable data
  let values ← written.mapM fun (key, value) => pushValue e key value
  let stamps := [e.createdAt, e.updatedAt].filter fun c => e.stamps c data
  let columns := (Record.keys written ++ stamps).map quotedName
  let sources := values ++ stamps.map fun _ => "NOW()"
  return "INSERT INTO " ++ tableText e ++ " AS " ++ mainAlias ++
    (if columns.isEmpty then " DEFAULT VALUES"
      else " (" ++ Text.joined ", " columns ++ ") VALUES (" ++ Text.joined ", " sources ++ ")") ++
    " RETURNING " ++ returningText e

/-- Add a row and give it back. -/
def insert (e : Entity) (data : Record) : Option Buffer := finish (insertText e data)

/-- The text of a change, from what is set and the placeholder of the key.  The row is read instead
when nothing is set. -/
def changeText (e : Entity) (sets : List String) (key : String) : String :=
  let keyed := " WHERE " ++ columnText mainAlias e.primaryKey ++ " = " ++ key
  if sets.isEmpty then
    "SELECT " ++ returningText e ++ " FROM " ++ tableText e ++ " " ++ mainAlias ++ keyed
  else
    "UPDATE " ++ tableText e ++ " AS " ++ mainAlias ++ " SET " ++ Text.joined ", " sets ++ keyed ++
      " RETURNING " ++ returningText e

/-- The steps for a change: the values that are written are put into the buffer before the key. -/
def updateText (e : Entity) (id : Value) (data : Record) (touch : Bool) : Building String := do
  let written := Record.keep (e.writable data) fun key => key != e.primaryKey
  let given ← written.mapM fun (key, value) => do
    let source ← pushValue e key value
    return quotedName key ++ " = " ++ source
  let sets := given ++
    if touch && e.stamps e.updatedAt data then [quotedName e.updatedAt ++ " = NOW()"] else []
  let key ← pushValue e e.primaryKey id
  return changeText e sets key

/-- Change the row with a key and give it back. -/
def update (e : Entity) (id : Value) (data : Record) (touch : Bool) : Option Buffer :=
  finish (updateText e id data touch)

end Buffer

end EntityService.Sql
