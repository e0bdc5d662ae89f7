import EntityService.Model.Entity
import EntityService.Query.Call

/-!
# Plans

A query for the rows of one entity.

## Main definitions

* `Plan` — an entity and the calls of a query
* `selectsAll` — a projection that takes every column
-/

namespace EntityService.Model

open EntityService.Query

/-- A query for the rows of an entity. -/
structure Plan where
  entity : Entity
  calls : Calls
  deriving Repr

namespace Plan

/-- The plan with one more call. -/
def add (p : Plan) (call : Call) : Plan := { p with calls := p.calls ++ [call] }

/-- The columns that the rows are put in order by, `true` for descending ones. -/
def orders (p : Plan) : List (String × Bool) := p.calls.effectiveOrders p.entity.primaryKey

end Plan

/-- A projection takes every column when it names none, or the star. -/
def selectsAll (columns : List String) : Bool := columns.isEmpty || columns.contains "*"

end EntityService.Model
