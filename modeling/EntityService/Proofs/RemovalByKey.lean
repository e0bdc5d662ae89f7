import EntityService.Proofs.DeclaredRows
import EntityService.Proofs.FreshKeys
import EntityService.Proofs.Lookup

/-!
# Removals by key

A removal by key takes the rows with the key and no other ones, provided that a look-up of the key
gives one of them.

## Main definitions

* `HasProperKey` — a row has a key that is neither null nor infinite
* `Change.Writes` — a change brings data of a kind, to entities of a model
* `Memory.changeAt` — the store after changes, each at its reading of the clock

## Main results

* `holds_changeAt` — whatever is done to a store, its rows have proper keys
* `find_shows`, `find_shows_none` — what a look-up gives, whatever is pending
* `rows_deleteRows_keyPlan` — the rows that a removal by key leaves
* `deleteById_shows`, `deleteById_shows_none` — what a removal by key comes to
* `store_deleteById` — what a removal by key changes
* `removal_by_key_takes_rows_with_key` — all of this for every store that is ever reached

## Design notes

A removal goes by the keys of the rows that a look-up gives, and not by the key that was asked for.
That it takes the same rows is due to equality of cells being symmetric and transitive; and since it
takes rows that are not in use as well, a repetition finds no row.
-/

namespace EntityService

open EntityService.Json EntityService.Model EntityService.Number EntityService.Query
open EntityService.Store

/-! ## Rows with proper keys -/

/-- The key of a row is neither null nor infinite. -/
structure HasProperKey (e : Entity) (row : Record) : Prop where
  given : (Record.cell row e.primaryKey).isNull = false
  finite : FiniteKey e row

/-- A row that is added has a key, which it brings or gets. -/
theorem hasProperKey_addRow {e : Entity} {row : Record} (h : FiniteKey e row) (store : Memory) :
    HasProperKey e (store.addRow e row).1 where
  given := isNull_cell_assignKey store e row
  finite := finiteKey_assignKey h store

theorem rowInvariant_hasProperKey (m : Model) : RowInvariant m HasFiniteValues HasProperKey where
  inserted e _ store _ hdata :=
    hasProperKey_addRow (finiteKey_newRow e store.clock hdata) store
  updated e he clock _ touch row hdata hrow :=
    ⟨isNull_key_putAll_assigned hrow.given clock _ touch,
      (rowInvariant_finiteKey m).updated e he clock _ touch row hdata hrow.finite⟩

theorem HasFiniteValues.finiteKey {row : Record} (h : HasFiniteValues row) (e : Entity) :
    FiniteKey e row := by
  rcases Record.cell_eq_null_or row e.primaryKey with hnull | hmem
  · unfold FiniteKey
    rw [hnull]
    exact trivial
  · exact h _ hmem

/-! ## Stores that are reached -/

/-- A change puts data of a kind into the store, and writes to entities of a model. -/
def Store.Change.Writes (m : Model) (kind : Record → Prop) : Change → Prop
  | seed _ rows => ∀ row, .object row ∈ rows → kind row
  | operation o => o.IsWithin m kind

/-- The store after changes, each at its reading of the clock. -/
def Store.Memory.changeAt (changes : List (String × Change)) (store : Memory) : Memory :=
  changes.foldl (fun store (clock, c) => c.after { store with clock }) store

section Reached

variable {m : Model} {store : Memory}

theorem seedRows_model (e : Entity) (rows : List Value) (store : Memory) :
    (store.seedRows e rows).2.model = store.model := by
  induction rows generalizing store with
  | nil => rfl
  | cons v rest ih =>
      cases v with
      | object row => exact (ih _).trans (store.addRow_model e row)
      | null | bool | number | string | array => rfl

theorem holds_seedRows (hm : m.IsResolved) {e : Entity} (he : e ∈ m.entities) {rows : List Value}
    (hrows : ∀ row, .object row ∈ rows → HasFiniteValues row) (h : store.Holds m HasProperKey) :
    (store.seedRows e rows).2.Holds m HasProperKey := by
  induction rows generalizing store with
  | nil => exact h
  | cons v rest ih =>
      cases v with
      | object row =>
          have hrow : HasFiniteValues row := hrows row List.mem_cons_self
          apply ih fun other hother => hrows other (List.mem_cons_of_mem _ hother)
          exact holds_addRow hm he (hasProperKey_addRow (hrow.finiteKey e) store) h
      | null | bool | number | string | array => exact h

/-- A change leaves the model as it is, and rows with proper keys. -/
theorem holds_change (hm : m.IsResolved) {c : Change} (hc : c.Writes m HasFiniteValues)
    (hmodel : store.model = m) (h : store.Holds m HasProperKey) :
    (c.after store).model = m ∧ (c.after store).Holds m HasProperKey := by
  cases c with
  | seed id rows =>
      show (Memory.seed id rows store).2.model = m ∧ _
      simp only [Change.after, Memory.seed]
      split
      · next e hfound =>
          rw [hmodel] at hfound
          exact ⟨(seedRows_model e rows store).trans hmodel,
            holds_seedRows hm (List.mem_of_find?_eq_some hfound) hc h⟩
      · exact ⟨hmodel, h⟩
  | operation o =>
      exact ⟨(after_model o store).trans hmodel,
        holds_after hm ((rowInvariant_hasProperKey m).keeps hc) h⟩

/-- Whatever is put into an empty store, added, changed and removed, its rows have proper keys. -/
theorem holds_changeAt (hm : m.IsResolved) {changes : List (String × Change)}
    (hchanges : ∀ timed ∈ changes, timed.2.Writes m HasFiniteValues) (hmodel : store.model = m)
    (h : store.Holds m HasProperKey) : (store.changeAt changes).Holds m HasProperKey := by
  induction changes generalizing store with
  | nil => exact h
  | cons timed rest ih =>
      obtain ⟨clock, c⟩ := timed
      obtain ⟨hfirst, hrest⟩ := List.forall_mem_cons.mp hchanges
      have hclock : Memory.model { store with clock } = m := hmodel
      obtain ⟨hmodel', h'⟩ := holds_change hm hfirst hclock h
      exact ih hrest hmodel' h'

end Reached

/-! ## Look-ups and removals -/

section Removal

variable {m : Model} {e : Entity} {id : Value} {r : Repository} {store : Memory}

/-- To record a query is to change the log. -/
theorem exists_log_record (store : Memory) (operation : String) (p : Plan) :
    ∃ log, store.record operation p = { store with log } := by
  unfold Memory.record
  split
  · exact ⟨_, rfl⟩
  · exact ⟨store.log, rfl⟩

variable (hr : r.IsOf m e)
include hr

/-- The rows of the plan for a key are those that have the key and are in use. -/
theorem mem_selection_keyPlan (hkeys : ∀ row ∈ store.rows e.id, HasProperKey e row)
    {row : Record} :
    row ∈ selection (r.keyPlan id) (store.rows e.id) ↔
      row ∈ store.rows e.id ∧ e.shows id row := by
  rw [selection, mem_sortRows, List.mem_filter]
  refine and_congr_right fun hrow => ?_
  rw [passesAll_keyPlan_of hr (.inr (hkeys row hrow).given)]

theorem head?_selected_keyPlan_eq_none_iff
    (hkeys : ∀ row ∈ store.rows e.id, HasProperKey e row) :
    (store.selected ((r.keyPlan id).add (.take 1))).head? = none ↔
      ∀ row ∈ store.rows e.id, ¬e.shows id row := by
  have hentity : ((r.keyPlan id).add (.take 1)).entity = e := hr.entity_eq
  have hmem (row : Record) : row ∈ store.selected ((r.keyPlan id).add (.take 1)) ↔
      row ∈ store.rows e.id ∧ e.shows id row := by
    rw [← mem_selection_keyPlan hr hkeys, Memory.selected, hentity, selection, selection,
      mem_sortRows, mem_sortRows, passesAll_add_take]
  rw [List.head?_eq_none_iff, List.eq_nil_iff_forall_not_mem]
  refine forall_congr' fun row => ?_
  rw [hmem, not_and]

/-- A row is found when one has the key and is in use. -/
theorem find_shows (hkeys : ∀ row ∈ store.rows e.id, HasProperKey e row)
    (hshows : ∃ row ∈ store.rows e.id, e.shows id row) (columns : List String) :
    ∃ row, (Session.find id columns ⟨r, store⟩).1 = .ok row := by
  rw [find_eq]
  cases hhead : (store.selected ((r.keyPlan id).add (.take 1))).head? with
  | some row => exact ⟨_, rfl⟩
  | none =>
      obtain ⟨row, hrow, hkey⟩ := hshows
      exact absurd hkey ((head?_selected_keyPlan_eq_none_iff hr hkeys).mp hhead row hrow)

/-- No row is found when none has the key and is in use. -/
theorem find_shows_none (hkeys : ∀ row ∈ store.rows e.id, HasProperKey e row)
    (hnone : ∀ row ∈ store.rows e.id, ¬e.shows id row) (columns : List String) :
    (Session.find id columns ⟨r, store⟩).1 = .error (.notFound (.row e.id id)) := by
  have hhead := (head?_selected_keyPlan_eq_none_iff hr hkeys).mpr hnone
  rw [find_eq, hhead, hr.entity_eq]

/-- A removal by key takes the rows that have the key, in use or not, when one of them is in use: a
row has the key of a row that is looked up if and only if it has the key that is asked for. -/
theorem rows_deleteRows_keyPlan (hid : id.IsFinite)
    (hkeys : ∀ row ∈ store.rows e.id, HasProperKey e row)
    (hshows : ∃ row ∈ store.rows e.id, e.shows id row) :
    (store.deleteRows (r.keyPlan id)).2.rows e.id =
      (store.rows e.id).filter fun row => !Memory.hasKey e id row := by
  have hentity : (r.keyPlan id).entity = e := hr.entity_eq
  have hlimit : (r.keyPlan id).calls.limit? = none := limit?_compose ..
  have hrows := store.deleteRows_rows_self (r.keyPlan id)
  rw [hentity, hlimit] at hrows
  rw [hrows]
  refine List.filter_congr fun row hrow => congrArg not (Bool.eq_iff_iff.mpr ?_)
  have hfinite := (hkeys row hrow).finite
  rw [List.any_map, List.any_eq_true]
  constructor
  · rintro ⟨other, hother, hsame⟩
    obtain ⟨hmem, hshows⟩ := (mem_selection_keyPlan hr hkeys).mp hother
    exact sameCell_trans hfinite (hkeys other hmem).finite hid hsame
      (Bool.and_eq_true_iff.mp hshows).1
  · intro hkey
    obtain ⟨other, hmem, hother⟩ := hshows
    refine ⟨other, (mem_selection_keyPlan hr hkeys).mpr ⟨hmem, hother⟩, ?_⟩
    have hback : sameCell id (Record.cell other e.primaryKey) :=
      (sameCell_comm hid (hkeys other hmem).finite).mpr (Bool.and_eq_true_iff.mp hother).1
    exact sameCell_trans hfinite hid (hkeys other hmem).finite hkey hback

/-- A removal fails when no row has the key and is in use, and does nothing to the rows. -/
theorem deleteById_shows_none (hkeys : ∀ row ∈ store.rows e.id, HasProperKey e row)
    (hnone : ∀ row ∈ store.rows e.id, ¬e.shows id row) :
    (Session.deleteById id ⟨r, store⟩).1 = .error (.notFound (.row e.id id)) ∧
      ∃ log, (Session.deleteById id ⟨r, store⟩).2.store = { store with log } := by
  have hfind := find_shows_none hr.drained hkeys hnone []
  have hdelete : Session.deleteById id ⟨r, store⟩ =
      (.error (.notFound (.row e.id id)), (Session.find id [] ⟨r.drained, store⟩).2) :=
    Action.bind_apply_of_error hfind _
  rw [hdelete, find_eq]
  exact ⟨rfl, exists_log_record store "get" _⟩

/-- A removal succeeds when a row has the key and is in use, and removes the rows of its plan. -/
theorem deleteById_shows (hkeys : ∀ row ∈ store.rows e.id, HasProperKey e row)
    (hshows : ∃ row ∈ store.rows e.id, e.shows id row) :
    (Session.deleteById id ⟨r, store⟩).1 = .ok true ∧
      ∃ log, (Session.deleteById id ⟨r, store⟩).2.store =
        (Memory.deleteRows { store with log } (r.drained.keyPlan id)).2 := by
  let p := r.drained.keyPlan id
  obtain ⟨row, hfind⟩ := find_shows hr.drained hkeys hshows []
  obtain ⟨before, hlooked⟩ := exists_log_record store "get" (p.add (.take 1))
  obtain ⟨log, hrecorded⟩ := exists_log_record { store with log := before } "delete" p
  have hafter : (Session.find id [] ⟨r.drained, store⟩).2 =
      ⟨r.drained, { store with log := before }⟩ := by
    rw [find_eq, ← hlooked]
    rfl
  have hdelete : Session.deleteById id ⟨r, store⟩ =
      (.ok (decide (0 < (Memory.deleteRows { store with log } p).1)),
        ⟨r.drained, (Memory.deleteRows { store with log } p).2⟩) := by
    refine (Action.bind_apply_of_ok hfind _).trans ?_
    rw [hafter, ← show Memory.record { store with log := before } "delete" p =
      { store with log } from hrecorded]
    rfl
  have hcount : 0 < (Memory.deleteRows { store with log } p).1 := by
    have hentity : p.entity = e := hr.entity_eq
    have hlimit : p.calls.limit? = none := limit?_compose ..
    obtain ⟨row, hrow⟩ := hshows
    show 0 < (limited _ (selection p (store.rows p.entity.id))).length
    rw [hlimit, hentity]
    exact List.length_pos_of_mem ((mem_selection_keyPlan hr.drained hkeys).mpr hrow)
  rw [hdelete]
  exact ⟨congrArg Except.ok (decide_eq_true hcount), log, rfl⟩

/-- What a removal that succeeds changes in a store: the rows with the key are gone from the table,
and nothing else is changed but the log of queries. -/
theorem store_deleteById (hid : id.IsFinite) (hkeys : ∀ row ∈ store.rows e.id, HasProperKey e row)
    (hshows : ∃ row ∈ store.rows e.id, e.shows id row) :
    let after := (Session.deleteById id ⟨r, store⟩).2.store
    after.rows e.id = (store.rows e.id).filter (fun row => !Memory.hasKey e id row) ∧
    (∀ other ≠ e.id, after.rows other = store.rows other) ∧
    (∀ entity, after.lastKey entity = store.lastKey entity) ∧
    { after with tables := store.tables, log := store.log } = store := by
  intro after
  obtain ⟨-, log, hafter⟩ := deleteById_shows hr hkeys hshows
  have hentity : (r.drained.keyPlan id).entity = e := hr.entity_eq
  have hdeleted : after = (Memory.deleteRows { store with log } (r.drained.keyPlan id)).2 := hafter
  rw [hdeleted]
  refine ⟨rows_deleteRows_keyPlan hr.drained hid hkeys hshows, fun other hother => ?_,
    fun entity => ?_, rfl⟩
  · rw [Memory.deleteRows_rows_of_ne _ _ (by rwa [hentity])]
    rfl
  · rw [Memory.lastKey_deleteRows]
    rfl

end Removal

/-- A row that does not have a key is not found by it. -/
theorem not_shows_of_mem_filter {e : Entity} {id : Value} {rows : List Record} {row : Record}
    (h : row ∈ rows.filter fun row => !Memory.hasKey e id row) : ¬e.shows id row := by
  intro hshows
  have hother := (List.mem_filter.mp h).2
  rw [(Bool.and_eq_true_iff.mp hshows).1] at hother
  cases hother

/-! ## Every store that is reached -/

/-- A removal by key from a store that has been filled, changed and emptied in any way.  It succeeds
exactly when a look-up of the key does.  Otherwise it finds no row and leaves the store as it is,
but for the log of queries.  When it succeeds, it takes the rows with the key from the table, and
leaves all others as they stand, and all other tables, and the last key of each; then neither a
look-up nor a removal finds a row with the key again. -/
theorem removal_by_key_takes_rows_with_key {config : Config.Configuration} {m : Model}
    (hm : Model.resolve config = .ok m) {e : Entity} (he : e ∈ m.entities) {empty : Memory}
    (hmodel : empty.model = m) (hempty : empty.tables = []) {changes : List (String × Change)}
    (hchanges : ∀ timed ∈ changes, timed.2.Writes m HasFiniteValues) {id : Value}
    (hid : id.IsFinite) {r : Repository} (hr : r.IsOf m e) (columns : List String) :
    let store := empty.changeAt changes
    let removal := Session.deleteById id ⟨r, store⟩
    let after := removal.2.store
    (removal.1 = .ok true ↔ ∃ row, (Session.find id columns ⟨r, store⟩).1 = .ok row) ∧
    (removal.1 ≠ .ok true → removal.1 = .error (.notFound (.row e.id id)) ∧
      { after with log := store.log } = store) ∧
    (removal.1 = .ok true →
      after.rows e.id = (store.rows e.id).filter (fun row => !Memory.hasKey e id row) ∧
      (∀ other ≠ e.id, after.rows other = store.rows other) ∧
      (∀ entity, after.lastKey entity = store.lastKey entity) ∧
      { after with tables := store.tables, log := store.log } = store ∧
      ∀ next : Repository, next.IsOf m e →
        (Session.find id columns ⟨next, after⟩).1 = .error (.notFound (.row e.id id)) ∧
        (Session.deleteById id ⟨next, after⟩).1 = .error (.notFound (.row e.id id))) := by
  intro store removal after
  have hkeys : ∀ row ∈ store.rows e.id, HasProperKey e row :=
    holds_changeAt (Model.isResolved_of_resolve hm) hchanges hmodel
      (holds_of_tables_eq_nil hempty) e he
  by_cases hshows : ∃ row ∈ store.rows e.id, e.shows id row
  · obtain ⟨hremoval, -⟩ := deleteById_shows hr hkeys hshows
    obtain ⟨hrows, hothers, hlastKey, hrest⟩ := store_deleteById hr hid hkeys hshows
    -- the rows that are left do not have the key, so that no later look-up finds one
    have hproper : ∀ row ∈ after.rows e.id, HasProperKey e row := by
      rw [hrows]
      exact fun row hrow => hkeys row (List.mem_filter.mp hrow).1
    have hnone : ∀ row ∈ after.rows e.id, ¬e.shows id row := by
      rw [hrows]
      exact fun row hrow => not_shows_of_mem_filter hrow
    exact ⟨iff_of_true hremoval (find_shows hr hkeys hshows columns),
      fun hne => absurd hremoval hne, fun _ => ⟨hrows, hothers, hlastKey, hrest, fun next hnext =>
        ⟨find_shows_none hnext hproper hnone columns,
          (deleteById_shows_none hnext hproper hnone).1⟩⟩⟩
  · have hnone : ∀ row ∈ store.rows e.id, ¬e.shows id row :=
      fun row hrow hkey => hshows ⟨row, hrow, hkey⟩
    have hfind := find_shows_none hr hkeys hnone columns
    obtain ⟨hremoval, log, hafter⟩ := deleteById_shows_none hr hkeys hnone
    have hfails : removal.1 ≠ .ok true := by
      rw [hremoval]
      exact nofun
    refine ⟨iff_of_false hfails ?_, fun _ => ⟨hremoval, ?_⟩, fun hok => absurd hok hfails⟩
    · rintro ⟨row, hrow⟩
      rw [hfind] at hrow
      cases hrow
    · show { removal.2.store with log := store.log } = store
      rw [hafter]

/-- Orders with a text and a number as equal keys are put into a store, and one without a key. -/
def Orders.twins : List (String × Change) :=
  [("2000-01-01T00:00:00+00:00", .seed "orders" [.object [("id", .string "7")],
    .object [("id", .number (.real (.ofInt 7)))], .object [("article", .string "Lamp")]])]

open Orders in
/-- Both orders are removed whose keys are the same as a third spelling of them. -/
theorem removal_by_key_takes_rows_with_key_orders :
    let store := empty.changeAt twins
    let r := Repository.of ⟨[order]⟩ order
    let removal := Session.deleteById (.string "07") ⟨r, store⟩
    let after := removal.2.store
    let keys (store : Memory) :=
      (store.rows "orders").map fun row => (Record.cell row "id").plainText
    keys store = ["7", "7.0", "8"] ∧ removal.1 = .ok true ∧
      keys after = ["8"] ∧
      (Session.deleteById (.string "07") ⟨r, after⟩).1 =
        .error (.notFound (.row "orders" (.string "07"))) := by
  intro store r removal after keys
  have hresolve : Model.resolve ⟨[orders], []⟩ = .ok ⟨[order]⟩ := rfl
  have hwrites : ∀ timed ∈ twins, timed.2.Writes ⟨[order]⟩ HasFiniteValues := by
    refine List.forall_mem_singleton.mpr fun row hrow => ?_
    simp only [List.mem_cons, Value.object.injEq, List.not_mem_nil, or_false] at hrow
    rcases hrow with rfl | rfl | rfl
    · exact List.forall_mem_singleton.mpr trivial
    · exact List.forall_mem_singleton.mpr (show (Double.ofInt 7).isFinite by decide +kernel)
    · exact List.forall_mem_singleton.mpr trivial
  have hmodel : empty.model = ⟨[order]⟩ := rfl
  have hid : (Value.string "07").IsFinite := trivial
  have hr := Repository.isOf_of ⟨[order]⟩ order
  obtain ⟨hsucceeds, -, hremoved⟩ := removal_by_key_takes_rows_with_key hresolve
    (List.mem_singleton.mpr rfl) hmodel rfl hwrites hid hr []
  have hkeys : ∀ row ∈ store.rows "orders", HasProperKey order row :=
    holds_changeAt (Model.isResolved_of_resolve hresolve) hwrites hmodel
      (holds_of_tables_eq_nil rfl) order (List.mem_singleton.mpr rfl)
  have hshows : (store.rows "orders").any (order.shows (.string "07")) := by decide +kernel
  have hok : removal.1 = .ok true :=
    hsucceeds.mpr (find_shows hr hkeys (List.any_eq_true.mp hshows) [])
  obtain ⟨hrows, -, -, -, hagain⟩ := hremoved hok
  have hafter : keys after = ["8"] := by
    show (after.rows order.id).map _ = _
    rw [hrows]
    decide +kernel
  exact ⟨by decide +kernel, hok, hafter, (hagain r hr).2⟩

end EntityService
