import EntityService.Action
import EntityService.Model.Plan
import EntityService.Query.Page

/-!
# Storage

What a store of rows does, whatever it is made of.

## Main definitions

* `Storage` — the operations of a store
* `Storage.first` — the first row of a plan
-/

namespace EntityService.Store

open EntityService.Json EntityService.Model EntityService.Query

/-- A store of rows with states of the type `σ`.  The columns of `get` and `paginate` are a
projection of the rows. -/
class Storage (σ : Type) where
  /-- The rows of a plan. -/
  get : Plan → List String → Action σ (List Value)
  /-- One page of the rows of a plan, by page size and number of the page. -/
  paginate : Plan → List String → Nat → Nat → Action σ (Page Value)
  /-- The count of the rows of a plan. -/
  count : Plan → Action σ Nat
  /-- Remove the rows of a plan, and give their count. -/
  delete : Plan → Action σ Nat
  /-- Add a row, and give it as it is stored. -/
  insert : Entity → Record → Action σ Value
  /-- Change the row with a key, and give it as it is stored; the flag sets the timestamp of
  changes. -/
  updateByKey : Entity → Value → Record → Bool → Action σ (Option Value)
  /-- Find out whether the store can be used. -/
  ping : Action σ Unit

/-- The first row of a plan. -/
def Storage.first {σ : Type} [Storage σ] (p : Plan) (columns : List String) :
    Action σ (Option Value) :=
  (Storage.get (p.add (.take 1)) columns).mapValue List.head?

end EntityService.Store
