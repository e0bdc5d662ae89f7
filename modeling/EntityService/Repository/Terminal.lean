import EntityService.Repository.Basic
import EntityService.Store.Storage
import EntityService.Validation.Check

/-!
# Operations on the rows of a repository

## Main definitions

* `Session` — a repository and the store it works on
* `Session.take`, `Session.reset` — use what is pending, or forget it
* `Session.all`, `Session.find`, `Session.create`, … — the operations

## Design notes

Each operation takes what is pending by itself: it makes its plan from it or forgets it, before it
goes to the store, so that nothing is left pending when the store fails.  Data are checked before
they are written; a row that is changed or removed by its key is first looked up with the gate of
the entity.
-/

namespace EntityService

open EntityService.Json EntityService.Model EntityService.Query EntityService.Store
open EntityService.Validation

/-- A repository and the store it works on. -/
structure Session (σ : Type) where
  repository : Repository
  store : σ

namespace Session

variable {σ α : Type}

/-- Run an operation on the store. -/
def onStore (operation : Action σ α) : Action (Session σ) α := fun s =>
  let (result, store) := operation s.store
  (result, { s with store })

/-- What the repository says. -/
def asks (question : Repository → α) : Action (Session σ) α := fun s =>
  (.ok (question s.repository), s)

/-- Make something from what is pending, and leave nothing pending. -/
def take (use : Repository → α) : Action (Session σ) α := fun s =>
  (.ok (use s.repository), { s with repository := s.repository.drained })

/-- Forget what is pending. -/
def reset : Action (Session σ) Unit := take fun _ => ()

/-- Fail if data break a rule of the entity. -/
def check (data : Record) (mode : Mode) : Action (Session σ) Unit := do
  match violation? (← asks (·.entity)) data mode with
  | some violation => Action.fail (.invalid violation)
  | none => pure ()

variable [Storage σ]

/-! ### Reading -/

/-- The rows of the request, with the pending relations. -/
def all (columns : List String) : Action (Session σ) (List Value) := do
  let plan ← take (·.requestPlan)
  onStore (Storage.get plan columns)

/-- The rows of what is pending. -/
def get (columns : List String) : Action (Session σ) (List Value) := do
  let plan ← take (·.pendingPlan)
  onStore (Storage.get plan columns)

/-- The first row of what is pending. -/
def first (columns : List String) : Action (Session σ) Value := do
  let plan ← take (·.pendingPlan)
  let row ← onStore (Storage.first plan columns)
  Action.ofOption (.notFound (.anyRow (← asks (·.entity.id)))) row

/-- The row with a key. -/
def find (id : Value) (columns : List String) : Action (Session σ) Value := do
  let plan ← take (·.keyPlan id)
  let row ← onStore (Storage.first plan columns)
  Action.ofOption (.notFound (.row (← asks (·.entity.id)) id)) row

/-- The first row with a value in a column, if there is one. -/
def findBy (column : String) (value : Value) (columns : List String) :
    Action (Session σ) (Option Value) := do
  let plan ← take (·.valuePlan column value)
  onStore (Storage.first plan columns)

/-- A page of what is pending.  Without a size the page has the size of the entity, without a number
it is the page that a parameter of the request names, or the first one. -/
def paginate (size : Option Nat) (columns : List String) (pageKey : String)
    (page : Option Nat) : Action (Session σ) (Page Value) := do
  let plan ← take (·.pendingPlan)
  let perPage ← asks (·.pageSizeFor size)
  let number ← asks fun r => Repository.pageNumberFor (page <|> r.numberParam? pageKey)
  onStore (Storage.paginate plan columns perPage number)

/-- A page of the request with all that is pending; the request names its size and number. -/
def search : Action (Session σ) (Page Value) := do
  let plan ← take (·.searchPlan)
  let perPage ← asks fun r => r.pageSizeFor (r.numberParam? "limit")
  let number ← asks fun r => Repository.pageNumberFor (r.numberParam? "page")
  onStore (Storage.paginate plan [] perPage number)

/-- The count of the rows of what is pending. -/
def count : Action (Session σ) Nat := do
  let plan ← take (·.pendingPlan)
  onStore (Storage.count plan)

/-! ### Writing -/

/-- Add a row. -/
def create (data : Record) : Action (Session σ) Value := do
  reset
  check data .create
  let e ← asks (·.entity)
  onStore (Storage.insert e data)

/-- Add several rows one after the other, up to the first failure. -/
def createMultiple : List Record → Action (Session σ) (List Value)
  -- each row takes what is pending by itself; with no rows it stays
  | [] => pure []
  | data :: rest => do
    let row ← create data
    let rows ← createMultiple rest
    return row :: rows

/-- Change the row with a key. -/
def updateById (id : Value) (data : Record) (touch : Bool) : Action (Session σ) Value := do
  reset
  let _ ← find id []
  check data .update
  let e ← asks (·.entity)
  let row ← onStore (Storage.updateByKey e id data touch)
  Action.ofOption (.notFound (.row e.id id)) row

/-- Remove the rows with a key; `true` when there was one to remove. -/
def deleteById (id : Value) : Action (Session σ) Bool := do
  reset
  let _ ← find id []
  let plan ← take (·.keyPlan id)
  return 0 < (← onStore (Storage.delete plan))

/-- Remove the rows with one of the keys, and give their count. -/
def deleteMultipleById (ids : List Value) : Action (Session σ) Nat := do
  reset
  if ids.isEmpty then return 0
  else
    let plan ← asks (·.keysPlan ids)
    onStore (Storage.delete plan)

/-- Remove the rows of what is pending, and give their count. -/
def delete : Action (Session σ) Nat := do
  let plan ← take (·.pendingPlan)
  onStore (Storage.delete plan)

/-- Find out whether the store can be used. -/
def ping : Action (Session σ) Unit := onStore Storage.ping

end Session

end EntityService
