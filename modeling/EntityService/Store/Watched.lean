import EntityService.Store.Storage

/-!
# Watched stores

A store of which the plans that are handed to it are noted.

## Main definitions

* `Watched` — a store, and the plans that have been handed to it
* `Watched.handing` — an operation that is handed a plan

## Design notes

Any store can be watched, and a watched store is a store.  What it answers is what the store inside
answers; plans are noted whether the operation on them fails or not.
-/

namespace EntityService.Store

open EntityService.Json EntityService.Model EntityService.Query

/-- A store, and the plans that have been handed to it, oldest first. -/
structure Watched (σ : Type) where
  store : σ
  handed : List Plan

namespace Watched

variable {σ α : Type}

/-- Run an operation that is handed no plan. -/
def inside (operation : Action σ α) : Action (Watched σ) α := fun w =>
  let (result, store) := operation w.store
  (result, { w with store })

/-- Run an operation that is handed a plan, and note the plan. -/
def handing (p : Plan) (operation : Action σ α) : Action (Watched σ) α := fun w =>
  let (result, store) := operation w.store
  (result, { store, handed := w.handed ++ [p] })

instance [Storage σ] : Storage (Watched σ) where
  get p columns := handing p (Storage.get p columns)
  paginate p columns perPage page := handing p (Storage.paginate p columns perPage page)
  count p := handing p (Storage.count p)
  delete p := handing p (Storage.delete p)
  insert e data := inside (Storage.insert e data)
  updateByKey e id data touch := inside (Storage.updateByKey e id data touch)
  ping := inside Storage.ping

end Watched

end EntityService.Store
