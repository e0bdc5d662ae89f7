import EntityService.Model.Plan
import EntityService.Model.Resolve
import EntityService.Query.Call
import EntityService.Query.Params

/-!
# Repositories

The rows of one entity, together with a request and what has been asked for so far.

## Main definitions

* `Repository` — an entity, the parameters of a request and a pending state
* `Repository.of` — the repository of an entity without request
* `Repository.filter`, `Repository.orderBy`, … — ask for something
* `Repository.pendingPlan`, `Repository.requestPlan`, … — the plans of the operations

## Design notes

Whatever is asked for stays pending until the next operation on the rows.  Each plan has the gate of
the entity as its first filter.
-/

namespace EntityService

open EntityService.Json EntityService.Model EntityService.Query

/-- The rows of one entity, with the parameters of a request and what has been asked for. -/
structure Repository where
  model : Model
  entity : Entity
  params : Params
  pending : Pending

namespace Repository

/-- The repository of an entity without request, with nothing asked for. -/
def of (model : Model) (entity : Entity) : Repository :=
  { model, entity, params := .empty, pending := .fresh entity.activeFlag }

/-! ### Asking -/

/-- Attach the parameters of a request. -/
def withParams (r : Repository) (params : Params) : Repository := { r with params }

/-- Change what is pending. -/
def ask (r : Repository) (change : Pending → Pending) : Repository :=
  { r with pending := change r.pending }

/-- Ask for the rows whose column compares with a value. -/
def filterBy (r : Repository) (column : String) (op : Comparison) (value : Value) : Repository :=
  r.ask fun p => p.addClause (match op with
    | .eq => .equality column value
    | op => .comparison column op value)

/-- Ask for the rows whose column has a value. -/
def filter (r : Repository) (column : String) (value : Value) : Repository :=
  r.filterBy column .eq value

/-- Ask for the rows whose column has one of the values, or none of them. -/
def filterIn (r : Repository) (column : String) (values : List Value) (negated : Bool) :
    Repository :=
  r.ask fun p => p.addClause (.membership column values negated)

/-- Ask for the rows whose column is null, or is not. -/
def filterNull (r : Repository) (column : String) (isNull : Bool) : Repository :=
  r.ask fun p => p.addClause (.nullness column isNull)

/-- Ask for an order. -/
def orderBy (r : Repository) (column direction : String) : Repository :=
  r.ask fun p => p.addSort ⟨column, direction⟩

/-- Ask for a limit. -/
def limit (r : Repository) (count : Nat) : Repository := r.ask fun p => p.setLimit count

/-- Ask for relations, in place of those asked for before. -/
def load (r : Repository) (relations : List String) : Repository :=
  r.ask fun p => p.setRelations relations

/-! ### The request -/

/-- The keys of parameters that name relations to load. -/
def loadKeys : List String := ["contain", "include"]

/-- The keys of parameters that name relations to count. -/
def countKeys : List String := ["count", "with_count"]

/-- The relations that the request asks to load and to count. -/
def requestedInclusion (r : Repository) : Inclusion :=
  resolveInclusion (r.params.firstOf? loadKeys) (r.params.firstOf? countKeys)
    (r.model.knownNames r.entity)

/-- The order that the request asks for. -/
def requestedSorts (r : Repository) : List SortKey :=
  resolveSorts (r.params.get? "sort") r.entity.defaultSort

/-- The conditions that the request asks for. -/
def requestedClauses (r : Repository) : List Clause :=
  resolveFilters r.params r.entity.filterable

/-- Ask for the relations of the request, if it names any. -/
def loadRequested (r : Repository) : Repository :=
  let relations := r.requestedInclusion.relations
  if relations.isEmpty then r else r.load relations

/-- The request either names relations to ask for, or there is nothing to ask for. -/
theorem loadRequested_eq_or (r : Repository) :
    r.loadRequested = r ∨ r.loadRequested = r.load r.requestedInclusion.relations := by
  unfold loadRequested
  dsimp only
  split
  · exact .inl rfl
  · exact .inr rfl

@[simp] theorem loadRequested_entity (r : Repository) : r.loadRequested.entity = r.entity := by
  rcases r.loadRequested_eq_or with h | h <;> rw [h]
  rfl

@[simp] theorem loadRequested_gate (r : Repository) :
    r.loadRequested.pending.gate = r.pending.gate := by
  rcases r.loadRequested_eq_or with h | h <;> rw [h]
  rfl

/-- A parameter of the request as a number. -/
def numberParam? (r : Repository) (key : String) : Option Nat :=
  (r.params.get? key).bind fun raw => Number.readNatural64? (Text.trim raw)

/-- The size of a page: the size asked for, or the one of the entity when none or zero is. -/
def pageSizeFor (r : Repository) (size : Option Nat) : Nat :=
  (size.filter (0 < ·)).getD r.entity.pageSize

/-- The number of a page: the number asked for, or the first one. -/
def pageNumberFor (page : Option Nat) : Nat := max (page.getD 1) 1

/-! ### Plans -/

/-- The repository with nothing asked for. -/
def drained (r : Repository) : Repository := r.ask Pending.drained

/-- The plan of a pending state alone. -/
def planOf (r : Repository) (state : Pending) : Plan :=
  ⟨r.entity, compose state .empty [] []⟩

/-- The plan of a pending state and the request. -/
def requestPlanOf (r : Repository) (state : Pending) : Plan :=
  ⟨r.entity, compose state r.requestedInclusion r.requestedSorts r.requestedClauses⟩

/-- The plan of what is pending. -/
def pendingPlan (r : Repository) : Plan := r.planOf r.pending

/-- The plan of the request with the relations that are pending. -/
def requestPlan (r : Repository) : Plan := r.requestPlanOf r.pending.eagerLoads

/-- The plan of the request with all that is pending. -/
def searchPlan (r : Repository) : Plan := r.requestPlanOf r.pending

/-- The plan of the rows with a value in a column, with the relations that are pending. -/
def valuePlan (r : Repository) (column : String) (value : Value) : Plan :=
  r.planOf (r.pending.eagerLoads.addClause (.equality column value))

/-- The plan of the rows with a key, with the relations that are pending. -/
def keyPlan (r : Repository) (id : Value) : Plan := r.valuePlan r.entity.primaryKey id

theorem keyPlan_entity (r : Repository) (id : Value) : (r.keyPlan id).entity = r.entity :=
  rfl

/-- The plan of the rows with one of the keys. -/
def keysPlan (r : Repository) (ids : List Value) : Plan :=
  r.planOf ((Pending.fresh r.entity.activeFlag).addClause
    (.membership r.entity.primaryKey ids false))

end Repository

end EntityService
