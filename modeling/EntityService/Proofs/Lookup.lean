import EntityService.Proofs.Comparison
import EntityService.Proofs.Reset
import EntityService.Proofs.StoredRows

/-!
# Look-ups by key

What an operation finds that looks for the row with a key.

## Main definitions

* `Entity.inUse`, `Entity.shows` — a row passes the gate, and has a key besides
* `found` — what a look-up by key gives

## Main results

* `passesAll_keyPlan_of` — the rows that pass a look-up by key
* `find_eq` — a look-up by key gives the first row of its plan
* `find_apply` — with finite keys this is the first one in the table that has the key and is in use
* `find_fst_of_filter_eq_singleton` — if there is one such row, it is found

## Design notes

The rows with a key are put in the order of their keys, which are all the same, so that they stay as
they stand.  A key that is an infinite number would be an exception, since it is written as `null`
and compared by that text with other texts; data that have been read hold no such number.
-/

namespace EntityService

open EntityService.Http EntityService.Json EntityService.Model EntityService.Query
open EntityService.Store

/-! ### The row with a key -/

/-- A row passes the gate of the entity. -/
def Model.Entity.inUse (e : Entity) (row : Record) : Bool :=
  (e.activeFlag.map ActiveFlag.gate).toList.all fun gate => passes row (.ofClause gate)

/-- A row has a key and is in use. -/
def Model.Entity.shows (e : Entity) (id : Value) (row : Record) : Bool :=
  Memory.hasKey e id row && e.inUse row

section Lookup

variable {m : Model} {e : Entity} {id : Value}

/-- The filters of a look-up by key are the gate of the entity and the key, whatever is pending. -/
theorem filters_keyPlan {r : Repository} (hr : r.IsOf m e) (id : Value) :
    (r.keyPlan id).calls.filters =
      ((e.activeFlag.map ActiveFlag.gate).toList ++ [Clause.equality e.primaryKey id]).map
        Call.ofClause := by
  obtain ⟨-, rfl, hgate⟩ := hr
  rw [← hgate]
  refine (filters_compose _ _ _ _).trans ?_
  rw [List.append_nil]
  rfl

/-- The rows that pass a look-up by key have the key and are in use.  A key that is null would find
rows whose key is null. -/
theorem passesAll_keyPlan_of {r : Repository} (hr : r.IsOf m e) {row : Record}
    (hnull : id.isNull = false ∨ (Record.cell row e.primaryKey).isNull = false) :
    passesAll (r.keyPlan id) row = e.shows id row := by
  have hkey : passes row (.ofClause (.equality e.primaryKey id)) = Memory.hasKey e id row := by
    change (if id.isNull then (Record.cell row e.primaryKey).isNull else _) = _
    cases hid : id.isNull with
    | false => rfl
    | true =>
        rw [if_pos rfl, hnull.resolve_left (by simp [hid]), Memory.hasKey, sameCell, compareCells?,
          hid, Bool.or_true, if_pos rfl]
        rfl
  rw [passesAll, filters_keyPlan hr, List.map_append, List.all_append, List.all_map,
    List.map_singleton, List.all_cons, List.all_nil, Bool.and_true, hkey, Bool.and_comm]
  rfl

/-- A limit is no filter. -/
theorem passesAll_add_take (p : Plan) (n : Nat) : passesAll (p.add (.take n)) = passesAll p := by
  funext row
  rw [passesAll, Plan.add, Calls.filters_append_take]
  rfl

/-- The filters of a look-up by key are the gate of the entity and the key. -/
theorem passesAll_keyPlan (hid : id.isNull = false) (row : Record) :
    passesAll (((Repository.of m e).keyPlan id).add (.take 1)) row = e.shows id row := by
  rw [passesAll_add_take]
  exact passesAll_keyPlan_of (Repository.isOf_of m e) (.inl hid)

/-- A look-up by key shows the rows that have the key and are in use, in the order of their keys. -/
theorem selected_keyPlan (hid : id.isNull = false) (store : Memory) :
    store.selected (((Repository.of m e).keyPlan id).add (.take 1)) =
      sortRows [(e.primaryKey, false)] ((store.rows e.id).filter (e.shows id)) := by
  have horders : (((Repository.of m e).keyPlan id).add (.take 1)).orders =
      [(e.primaryKey, false)] := by
    have hnone : ((Repository.of m e).keyPlan id).calls.orders = [] := orders_compose _ _ _ _
    rw [Plan.orders, Plan.add, Calls.effectiveOrders, Calls.directedOrders,
      Calls.orders_append_take, hnone]
    rfl
  have hrows : (store.rows e.id).filter (passesAll (((Repository.of m e).keyPlan id).add
      (.take 1))) = (store.rows e.id).filter (e.shows id) :=
    List.filter_congr fun row _ => passesAll_keyPlan hid row
  rw [Memory.selected, selection, horders]
  exact congrArg _ hrows

/-- A look-up by key loads and counts nothing. -/
theorem shown_keyPlan (store : Memory) :
    store.shown (((Repository.of m e).keyPlan id).add (.take 1)) [] = Value.object := by
  have hrelations : (((Repository.of m e).keyPlan id).add (.take 1)).calls.relations = [] :=
    (Calls.relations_append_take _ _).trans (relations_compose _ _ _ _)
  have hcounts : (((Repository.of m e).keyPlan id).add (.take 1)).calls.counts = [] :=
    (Calls.counts_append_take _ _).trans (counts_compose _ _ _ _)
  funext row
  simp only [Memory.shown, Memory.knownPaths, Memory.counted, hrelations, hcounts]
  rfl

/-- A look-up by key gives the first row of its plan, and leaves nothing pending. -/
theorem find_eq (r : Repository) (id : Value) (columns : List String) (store : Memory) :
    let p := (r.keyPlan id).add (.take 1)
    Session.find id columns ⟨r, store⟩ =
      (match (store.selected p).head? with
        | some row => .ok (store.shown p columns row)
        | none => .error (.notFound (.row r.entity.id id)),
      ⟨r.drained, store.record "get" p⟩) := by
  intro p
  have hfind : Session.find id columns ⟨r, store⟩ =
      (Session.onStore (Storage.first (r.keyPlan id) columns) >>= fun row =>
        Session.asks (·.entity.id) >>= fun e => Action.ofOption (.notFound (.row e id)) row)
        ⟨r.drained, store⟩ := rfl
  have hfirst : (Session.onStore (Storage.first (r.keyPlan id) columns) ⟨r.drained, store⟩).1 =
      .ok ((store.selected p).head?.map (store.shown p columns)) :=
    Memory.first_fst (r.keyPlan id) columns store
  rw [hfind, Action.bind_apply_of_ok hfirst]
  cases (store.selected p).head? <;> rfl

/-- The rows that have a key and are in use stay as they stand in the table when they are put in the
order of their keys. -/
theorem sortRows_shows {store : Memory} (hfinite : id.IsFinite)
    (hkeys : ∀ row ∈ store.rows e.id, FiniteKey e row) :
    sortRows [(e.primaryKey, false)] ((store.rows e.id).filter (e.shows id)) =
      (store.rows e.id).filter (e.shows id) := by
  refine sortRows_eq_self hfinite ?_ ?_ _
  · exact fun row hrow => hkeys row (List.mem_filter.mp hrow).1
  · intro row hrow
    exact (Bool.and_eq_true_iff.mp (List.mem_filter.mp hrow).2).1

/-- What is found under a key. -/
def found (store : Memory) (e : Entity) (id : Value) : Except Error Value :=
  match (store.rows e.id).find? (e.shows id) with
  | some row => .ok (.object row)
  | none => .error (.notFound (.row e.id id))

/-- In tables with finite keys a look-up gives the first row that has the key and is in use, and
does nothing to the rows. -/
theorem find_apply {store : Memory} (hid : id.isNull = false) (hfinite : id.IsFinite)
    (hkeys : ∀ row ∈ store.rows e.id, FiniteKey e row) :
    ∃ looked : Memory, (∀ other, looked.rows other = store.rows other) ∧
      looked.clock = store.clock ∧
      Session.find id [] ⟨Repository.of m e, store⟩ =
        (found store e id, ⟨Repository.of m e, looked⟩) := by
  let p := ((Repository.of m e).keyPlan id).add (.take 1)
  refine ⟨store.record "get" p, store.record_rows "get" p, store.record_clock "get" p, ?_⟩
  rw [find_eq, selected_keyPlan hid store, sortRows_shows hfinite hkeys, List.head?_filter,
    shown_keyPlan, found]
  rfl

/-- A look-up gives the one row that has the key and is in use. -/
theorem find_fst_of_filter_eq_singleton (hid : id.isNull = false) {store : Memory} {row : Record}
    (hrow : (store.rows e.id).filter (e.shows id) = [row]) :
    (inSession (Repository.of m e) (Session.find id []) store).1 = .ok (.object row) := by
  change (Session.find id [] ⟨Repository.of m e, store⟩).1 = _
  rw [find_eq, selected_keyPlan hid store, hrow, sortRows, List.mergeSort_singleton,
    shown_keyPlan]
  rfl

end Lookup

end EntityService
