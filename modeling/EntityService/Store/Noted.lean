import EntityService.Store.Storage

/-!
# Noted stores

A store of which the rows that it answers with are noted.

## Main definitions

* `Noted` — a store, and the rows that it has answered with
* `Noted.giving` — an operation that answers with rows

## Design notes

Any store can be noted, and a noted store is a store.  What it answers is what the store inside
answers.  The rows of each answer are noted together, so that it can be told which answer they
belong to; an operation that fails answers with no rows.
-/

namespace EntityService.Store

open EntityService.Json EntityService.Query

/-- A store, and the rows of its answers, oldest answer first. -/
structure Noted (σ : Type) where
  store : σ
  answered : List (List Value) := []

namespace Noted

variable {σ α : Type}

/-- Run an operation that does not answer with rows. -/
def inside (operation : Action σ α) : Action (Noted σ) α := fun n =>
  let (result, store) := operation n.store
  (result, { n with store })

/-- Run an operation, and note the rows of its answer. -/
def giving (rows : α → List Value) (operation : Action σ α) : Action (Noted σ) α := fun n =>
  match operation n.store with
  | (.ok x, store) => (.ok x, { store, answered := n.answered ++ [rows x] })
  | (.error cause, store) => (.error cause, { n with store })

instance [Storage σ] : Storage (Noted σ) where
  get p columns := giving id (Storage.get p columns)
  paginate p columns perPage page := giving Page.rows (Storage.paginate p columns perPage page)
  count p := inside (Storage.count p)
  delete p := inside (Storage.delete p)
  insert e data := giving (fun row => [row]) (Storage.insert e data)
  updateByKey e id data touch := giving Option.toList (Storage.updateByKey e id data touch)
  ping := inside Storage.ping

/-! ### What is answered and noted -/

section Giving

variable (rows : α → List Value) (operation : Action σ α) (n : Noted σ)

theorem giving_fst : (giving rows operation n).1 = (operation n.store).1 := by
  unfold giving
  split
  · next heq => rw [heq]
  · next heq => rw [heq]

theorem giving_store : (giving rows operation n).2.store = (operation n.store).2 := by
  unfold giving
  split
  · next heq => rw [heq]
  · next heq => rw [heq]

variable {rows operation n}

theorem giving_answered {x : α} (h : (giving rows operation n).1 = .ok x) :
    (giving rows operation n).2.answered = n.answered ++ [rows x] := by
  unfold giving at h ⊢
  split at h
  · cases h
    rfl
  · cases h

end Giving

end Noted

end EntityService.Store
