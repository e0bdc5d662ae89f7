import EntityService.Sql.Query
import EntityService.Sql.Write
import EntityService.Store.Reply
import EntityService.Store.Storage

/-!
# Rows in a database

A store that sends statements to a database and reads its replies.

## Main definitions

* `Link` — the connection to a database
* `Database` — a connection with the statements that were sent
* `Database.send` — send a statement

## Design notes

The replies that a database will give are part of the state, so a run with a database is a function
like any other.  A database that has nothing to say replies without rows.
-/

namespace EntityService.Store

open EntityService.Json EntityService.Model EntityService.Query EntityService.Sql

/-- The connection to a database: closed, or open with the replies to come. -/
inductive Link where
  | closed
  | replies (toCome : List Reply)
  deriving Repr

/-- A connection to a database for the entities of a model, with the statements that were sent. -/
structure Database where
  model : Model
  link : Link
  sent : List Statement := []
  deriving Repr

namespace Database

/-- Send a statement and take the next reply. -/
def send (s : Statement) : Action Database Reply.Rows := fun d =>
  let after := fun rest => { d with link := .replies rest, sent := d.sent ++ [s] }
  match d.link with
  | .closed => (.error (.database .closed), d)
  | .replies [] => (.ok {}, after [])
  | .replies (.rows r :: rest) => (.ok r, after rest)
  | .replies (.refused code text :: rest) => (.error (.database (.refused code text)), after rest)

/-- The count that a statement asks for. -/
def askCount (s : Statement) : Action Database Nat := do
  match (← send s).countOf with
  | .ok count => pure count
  | .error cause => Action.fail (.database cause)

/-- The rows that a statement asks for. -/
def askRows (s : Statement) : Action Database (List Value) :=
  (send s).mapValue Reply.Rows.values

/-- The statement that finds out whether there is a database. -/
def probe : Statement := words "SELECT 1"

instance : Storage Database where
  get p columns := fun d => askRows (select d.model p columns none) d
  paginate p columns perPage page := fun d =>
    (askCount (countRows p)).bind (fun total =>
      (askRows (select d.model p columns (some (perPage, Page.offset perPage page)))).mapValue
        fun rows => Page.of rows total perPage (max page 1)) d
  count p := askCount (countRows p)
  delete p := (send (deleteRows p)).mapValue Reply.Rows.affected
  insert e data := do Action.ofOption (.database .noRow) (← askRows (insert e data)).head?
  updateByKey e id data touch := (askRows (update e id data touch)).mapValue List.head?
  ping := (send probe).mapValue fun _ => ()

end Database

end EntityService.Store
