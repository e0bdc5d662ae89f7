import EntityService.Repository.Terminal

/-!
# Runs of a repository

A repository is used by asking for something several times and then running an operation, as often
as one likes.

## Main definitions

* `Ask` — something that is asked of a repository before an operation
* `Terminal` — an operation with its arguments
* `Step`, `run` — what is done with a repository, and the session after it
* `paramsInForce`, `pushedClauses` — what a run has put into its repository

## Design notes

`Session.asked` and `Terminal.run` are the steps of a transition system whose states are sessions.
What an operation answers is kept as an `Answer`, so that all operations have one type.
-/

namespace EntityService

open EntityService.Json EntityService.Model EntityService.Query EntityService.Store

/-- Something that is asked of a repository. -/
inductive Ask where
  | filter (column : String) (value : Value)
  | filterBy (column : String) (op : Comparison) (value : Value)
  | filterIn (column : String) (values : List Value) (negated : Bool)
  | filterNull (column : String) (isNull : Bool)
  | orderBy (column direction : String)
  | limit (count : Nat)
  | load (relations : List String)
  | loadRequested
  | withParams (params : Params)
  deriving Repr

namespace Ask

/-- The repository after something has been asked of it. -/
def apply : Ask → Repository → Repository
  | filter column value, r => r.filter column value
  | filterBy column op value, r => r.filterBy column op value
  | filterIn column values negated, r => r.filterIn column values negated
  | filterNull column isNull, r => r.filterNull column isNull
  | orderBy column direction, r => r.orderBy column direction
  | limit count, r => r.limit count
  | load relations, r => r.load relations
  | loadRequested, r => r.loadRequested
  | withParams params, r => r.withParams params

/-- The clause that is put into the pending state. -/
def clause? : Ask → Option Clause
  | filter column value => some (.equality column value)
  | filterBy column .eq value => some (.equality column value)
  | filterBy column op value => some (.comparison column op value)
  | filterIn column values negated => some (.membership column values negated)
  | filterNull column isNull => some (.nullness column isNull)
  | _ => none

/-- The parameters that are in force afterwards. -/
def paramsAfter : Ask → Params → Params
  | withParams params, _ => params
  | _, params => params

end Ask

/-- What an operation answers. -/
inductive Answer where
  | rows (rows : List Value)
  | row (row : Value)
  | optional (row : Option Value)
  | page (page : Page Value)
  | count (count : Nat)
  | done (done : Bool)
  deriving Repr

/-- An operation on the rows of a repository, with its arguments. -/
inductive Terminal where
  | all (columns : List String)
  | get (columns : List String)
  | first (columns : List String)
  | find (id : Value) (columns : List String)
  | findBy (column : String) (value : Value) (columns : List String)
  | create (data : Record)
  | createMultiple (items : List Record)
  | updateById (id : Value) (data : Record) (touch : Bool)
  | deleteById (id : Value)
  | deleteMultipleById (ids : List Value)
  | paginate (size : Option Nat) (columns : List String) (pageKey : String) (page : Option Nat)
  | search
  | count
  | delete
  deriving Repr

/-- What is done with a repository. -/
inductive Step where
  | ask (ask : Ask)
  | terminal (terminal : Terminal)
  deriving Repr

variable {σ : Type}

/-- The session after something has been asked of its repository. -/
def Session.asked (s : Session σ) (a : Ask) : Session σ :=
  { s with repository := a.apply s.repository }

variable [Storage σ]

/-- Run an operation. -/
def Terminal.run : Terminal → Action (Session σ) Answer
  | all columns => (Session.all columns).mapValue .rows
  | get columns => (Session.get columns).mapValue .rows
  | first columns => (Session.first columns).mapValue .row
  | find id columns => (Session.find id columns).mapValue .row
  | findBy column value columns => (Session.findBy column value columns).mapValue .optional
  | create data => (Session.create data).mapValue .row
  | createMultiple items => (Session.createMultiple items).mapValue .rows
  | updateById id data touch => (Session.updateById id data touch).mapValue .row
  | deleteById id => (Session.deleteById id).mapValue .done
  | deleteMultipleById ids => (Session.deleteMultipleById ids).mapValue .count
  | paginate size columns pageKey page =>
    (Session.paginate size columns pageKey page).mapValue .page
  | search => Session.search.mapValue .page
  | count => Session.count.mapValue .count
  | delete => Session.delete.mapValue .count

/-- The session after a step, whatever the operation of the step answers. -/
def Step.after (s : Session σ) : Step → Session σ
  | ask a => s.asked a
  | terminal t => (t.run s).2

/-- The session after a run. -/
def run (steps : List Step) (s : Session σ) : Session σ := steps.foldl Step.after s

/-- The parameters that the last request attached during a run has, or the ones before it. -/
def paramsInForce (steps : List Step) (params : Params) : Params :=
  steps.foldl (fun params step => match step with
    | .ask a => a.paramsAfter params
    | .terminal _ => params) params

/-- The clauses that a run has put into the pending state of its repository. -/
def pushedClauses (steps : List Step) : List Clause :=
  steps.filterMap fun step => match step with
    | .ask a => a.clause?
    | .terminal _ => none

end EntityService
