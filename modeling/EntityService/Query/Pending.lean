import EntityService.Query.Clause
import EntityService.Query.SortKey

/-!
# Pending state of a query

What has been asked for but not yet run.

## Main definitions

* `ActiveFlag` — the column and value that mark the rows in use
* `Pending` — gate, clauses, sorts, relations and limit
* `Pending.fresh` — the state with nothing but the gate
* `Pending.eagerLoads` — the state without anything but gate and relations

## Design notes

The gate is a clause on the active flag.  It belongs to the entity and is part of every state made
from another one, so draining a state is a matter of going back to `Pending.drained`.
-/

namespace EntityService.Query

open EntityService.Json

/-- The column and value that mark the rows in use. -/
structure ActiveFlag where
  column : String
  value : Value
  deriving Repr

/-- The clause that lets rows in use pass. -/
def ActiveFlag.gate (flag : ActiveFlag) : Clause := .equality flag.column flag.value

/-- What has been asked for but not yet run. -/
structure Pending where
  gate : Option Clause
  clauses : List Clause
  sorts : List SortKey
  relations : List String
  limit : Option Nat
  deriving Repr

namespace Pending

/-- The state with nothing but a gate. -/
def ofGate (gate : Option Clause) : Pending :=
  { gate, clauses := [], sorts := [], relations := [], limit := none }

/-- The state of a new query. -/
def fresh (flag : Option ActiveFlag) : Pending := ofGate (flag.map ActiveFlag.gate)

/-- Add a clause. -/
def addClause (p : Pending) (clause : Clause) : Pending :=
  { p with clauses := p.clauses ++ [clause] }

/-- Add a sort. -/
def addSort (p : Pending) (sort : SortKey) : Pending := { p with sorts := p.sorts ++ [sort] }

/-- Replace the relations to load. -/
def setRelations (p : Pending) (relations : List String) : Pending := { p with relations }

/-- Set the limit. -/
def setLimit (p : Pending) (limit : Nat) : Pending := { p with limit := some limit }

/-- The gate followed by the clauses. -/
def allClauses (p : Pending) : List Clause := p.gate.toList ++ p.clauses

/-- Nothing but the gate is pending. -/
def isClear (p : Pending) : Bool :=
  p.clauses.isEmpty && p.sorts.isEmpty && p.relations.isEmpty && p.limit.isNone

/-- The state that is left when everything pending has been taken. -/
def drained (p : Pending) : Pending := ofGate p.gate

/-- The state with its gate and relations alone. -/
def eagerLoads (p : Pending) : Pending := { ofGate p.gate with relations := p.relations }

/-- Equality of states. -/
def same (p q : Pending) : Bool :=
  sameGates p.gate q.gate && sameClauses p.clauses q.clauses && p.sorts == q.sorts &&
    p.relations == q.relations && p.limit == q.limit
where
  /-- Equality of gates. -/
  sameGates : Option Clause → Option Clause → Bool
    | none, none => true
    | some a, some b => a.same b
    | _, _ => false
  /-- Equality of clause lists. -/
  sameClauses : List Clause → List Clause → Bool
    | [], [] => true
    | a :: as, b :: bs => a.same b && sameClauses as bs
    | _, _ => false

end Pending

end EntityService.Query
