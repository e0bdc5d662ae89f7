import EntityService.Proofs.Bookshop
import EntityService.Proofs.FreshKeys
import EntityService.Store.Database
import EntityService.Store.Related

/-!
# What an update writes

An update writes the same columns with the same values in memory and in a database, and nothing
else.

## Main definitions

* `Assigns` — the assignments that an update is to make
* `IsWritten` — a row after the assignments
* `RowUpdated` — a store in memory after an update
* `RowUpdate`, `readUpdate?` — what a statement changes, read from its pieces

## Main results

* `mem_change`, `nodup_columns_change` — the list of assignments has each of them once
* `rowUpdated_updateByKey` — what an update does to a store in memory
* `readUpdate?_update` — what the statement for an update says
* `update_writes_permitted_columns` — both of them for the same update

## Design notes

Data are a map, so their keys differ.  The time of an update is the reading of the clock in memory,
and left to the database in a statement; an assignment without a value stands for it.
-/

namespace EntityService

open EntityService.Json EntityService.Model EntityService.Query EntityService.Sql
open EntityService.Store

variable {e : Entity} {data : Record} {touch : Bool}

/-! ### Assignments -/

/-- The assignments that an update makes: the data under each key that is written, other than the
primary key, and the time when the row is touched, the timestamp is declared and the data do not
have it.  A key is written when it is declared, or when no columns are. -/
inductive Assigns (e : Entity) (data : Record) (touch : Bool) : Assignment → Prop
  | given {key : String} {value : Value} (mem : (key, value) ∈ data)
      (written : e.columns = [] ∨ e.declares key) (other : key ≠ e.primaryKey) :
      Assigns e data touch ⟨key, some value⟩
  | time (touched : touch = true) (declared : e.declares e.updatedAt)
      (absent : e.updatedAt ∉ Record.keys data) : Assigns e data touch ⟨e.updatedAt, none⟩

theorem takesKey_iff {key : String} : e.takesKey key ↔ e.columns = [] ∨ e.declares key := by
  rw [Entity.takesKey, Bool.or_eq_true, List.isEmpty_iff]

theorem stamps_iff {column : String} :
    e.stamps column data ↔ e.declares column ∧ column ∉ Record.keys data := by
  have hhas : Record.has data column ↔ column ∈ Record.keys data :=
    ⟨Record.mem_keys_of_has, Record.has_of_mem_keys⟩
  rw [Entity.stamps, Bool.and_eq_true, Bool.not_eq_true', ← hhas, Bool.not_eq_true]

/-- The members of data that an update writes. -/
theorem mem_keep_writable {key : String} {value : Value} :
    (key, value) ∈ Record.keep (e.writable data) (fun key => key != e.primaryKey) ↔
      (key, value) ∈ data ∧ (e.columns = [] ∨ e.declares key) ∧ key ≠ e.primaryKey := by
  rw [Record.keep, List.mem_filter, Entity.writable, Record.keep, List.mem_filter, and_assoc,
    ← takesKey_iff, bne_iff_ne]

/-- The list of assignments has those that an update makes. -/
theorem mem_change {a : Assignment} : a ∈ change e data touch ↔ Assigns e data touch a := by
  rw [change, given, List.mem_append]
  constructor
  · rintro (h | h)
    · obtain ⟨⟨key, value⟩, hmember, rfl⟩ := List.mem_map.mp h
      obtain ⟨hmem, hwritten, hother⟩ := mem_keep_writable.mp hmember
      exact .given hmem hwritten hother
    · split at h
      · next hstamp =>
          obtain ⟨htouch, hstamps⟩ := Bool.and_eq_true_iff.mp hstamp
          obtain ⟨hdeclared, habsent⟩ := stamps_iff.mp hstamps
          obtain rfl := List.mem_singleton.mp h
          exact .time htouch hdeclared habsent
      · cases h
  · rintro (⟨hmem, hwritten, hother⟩ | ⟨htouch, hdeclared, habsent⟩)
    · exact .inl (List.mem_map.mpr ⟨_, mem_keep_writable.mpr ⟨hmem, hwritten, hother⟩, rfl⟩)
    · rw [if_pos (Bool.and_eq_true_iff.mpr ⟨htouch, stamps_iff.mpr ⟨hdeclared, habsent⟩⟩)]
      exact .inr (List.mem_singleton_self _)

/-- No column is assigned twice. -/
theorem nodup_columns_change (hdata : (Record.keys data).Nodup) :
    ((change e data touch).map (·.column)).Nodup := by
  have hgiven : (given (Record.keep (e.writable data) fun key => key != e.primaryKey)).map
      (·.column) = Record.keys (Record.keep (e.writable data) fun key => key != e.primaryKey) := by
    rw [given, List.map_map]
    rfl
  have hsub : (Record.keys (Record.keep (e.writable data) fun key =>
      key != e.primaryKey)).Sublist (Record.keys data) :=
    (List.filter_sublist.trans List.filter_sublist).map Prod.fst
  rw [change, List.map_append, hgiven]
  split
  · next hstamp =>
      have habsent := (stamps_iff.mp (Bool.and_eq_true_iff.mp hstamp).2).2
      refine List.nodup_append.mpr ⟨hdata.sublist hsub, List.nodup_singleton _, ?_⟩
      intro column hcolumn other hother heq
      obtain rfl := List.mem_singleton.mp hother
      subst heq
      exact habsent (hsub.subset hcolumn)
  · rw [List.map_nil, List.append_nil]
    exact hdata.sublist hsub

/-- The primary key is assigned only when it is the timestamp that is touched. -/
theorem Assigns.of_primaryKey {value : Option Value}
    (h : Assigns e data touch ⟨e.primaryKey, value⟩) :
    value = none ∧ touch = true ∧ e.primaryKey = e.updatedAt := by
  generalize hkey : e.primaryKey = key at h
  cases h with
  | given _ _ hother => exact absurd hkey.symm hother
  | time htouch => exact ⟨rfl, htouch, rfl⟩

/-! ### In memory -/

/-- The members that are put into the row are the assignments, with the reading of the clock for the
time. -/
theorem assigned_eq_map_change (clock : String) :
    Memory.assigned e clock data touch =
      (change e data touch).map fun a => (a.column, a.value.getD (.string clock)) := by
  have hgiven (members : Record) :
      (given members).map (fun a => (a.column, a.value.getD (.string clock))) = members := by
    rw [given, List.map_map]
    exact List.map_id members
  rw [Memory.assigned, change, List.map_append, hgiven]
  congr 1
  cases touch with
  | false => rfl
  | true => cases hstamps : e.stamps e.updatedAt data <;> simp [Memory.stampsAt, hstamps]

/-- `after` is the row `before` with the assignments of an update at a time. -/
structure IsWritten (e : Entity) (data : Record) (touch : Bool) (clock : String)
    (before after : Record) : Prop where
  assigned : ∀ a, Assigns e data touch a →
    Record.get? after a.column = some (a.value.getD (.string clock))
  kept : ∀ key, (∀ a, Assigns e data touch a → a.column ≠ key) →
    Record.get? after key = Record.get? before key

theorem isWritten_putAll (hdata : (Record.keys data).Nodup) (clock : String) (row : Record) :
    IsWritten e data touch clock row
      (Record.putAll row (Memory.assigned e clock data touch)) := by
  have hkeys : Record.keys (Memory.assigned e clock data touch) =
      (change e data touch).map (·.column) := by
    rw [assigned_eq_map_change, Record.keys, List.map_map]
    rfl
  constructor
  · intro a ha
    have hmem : (a.column, a.value.getD (.string clock)) ∈ Memory.assigned e clock data touch := by
      rw [assigned_eq_map_change]
      exact List.mem_map.mpr ⟨a, mem_change.mpr ha, rfl⟩
    exact Record.get?_putAll_of_mem (hkeys ▸ nodup_columns_change hdata) hmem row
  · intro key hkey
    refine Record.get?_putAll_of_not_mem (fun hmem => ?_) row
    rw [hkeys] at hmem
    obtain ⟨a, ha, hcolumn⟩ := List.mem_map.mp hmem
    exact hkey a (mem_change.mp ha) hcolumn

/-- `after` is the store `before` with an update of the first row that has a key: all tables have
the rows that they had, in their order, with the exception of this row, and no key was made. -/
structure RowUpdated (e : Entity) (id : Value) (data : Record) (touch : Bool)
    (before after : Memory) : Prop where
  frame : { after with tables := before.tables } = before
  lastKeys : ∀ entity, after.lastKey entity = before.lastKey entity
  others : ∀ entity ≠ e.id, after.rows entity = before.rows entity
  length : (after.rows e.id).length = (before.rows e.id).length
  untouched : ∀ i ≠ (before.rows e.id).findIdx (Memory.hasKey e id),
    (after.rows e.id)[i]? = (before.rows e.id)[i]?
  written : ∀ row, (before.rows e.id).find? (Memory.hasKey e id) = some row →
    ∃ changed, (after.rows e.id)[(before.rows e.id).findIdx (Memory.hasKey e id)]? = some changed ∧
      IsWritten e data touch before.clock row changed

theorem rowUpdated_updateByKey (m : Memory) (e : Entity) (id : Value) (touch : Bool)
    (hdata : (Record.keys data).Nodup) :
    RowUpdated e id data touch m (Storage.updateByKey e id data touch m).2 := by
  have hstore : (Storage.updateByKey e id data touch m).2 = (m.updateRow e id data touch).2 := rfl
  have hrows := m.updateRow_rows_self e id data touch
  rw [hstore]
  constructor
  · unfold Memory.updateRow
    dsimp only
    split <;> rfl
  · exact m.lastKey_updateRow e id data touch
  · exact fun _ hother => m.updateRow_rows_of_ne e id data touch hother
  · rw [hrows, List.length_modify]
  · intro i hi
    rw [hrows, List.getElem?_modify_ne _ _ hi.symm]
  · intro row hrow
    rw [hrows, List.getElem?_modify_eq, ← List.find?_eq_getElem?_findIdx, hrow]
    exact ⟨_, rfl, isWritten_putAll hdata m.clock row⟩

/-! ### In a statement -/

/-- What a statement changes: the assignments in the rows of a table with a key. -/
structure RowUpdate where
  schema : String
  table : String
  assignments : List Assignment
  keyColumn : String
  key : Value

/-- The right side of an assignment: a parameter or the time. -/
def readSource? : Piece → Option (Option Value)
  | .param value _ => some (some value)
  | .words "NOW()" => some none
  | _ => none

/-- The assignments up to the condition, with what follows them. -/
def readAssignments? : Statement → Option (List Assignment × Statement)
  | .name column :: .words " = " :: source :: .words separator :: rest =>
    (readSource? source).bind fun value =>
      if separator = ", " then
        (readAssignments? rest).map fun (assignments, rest) =>
          (⟨column, value⟩ :: assignments, rest)
      else if separator = " WHERE " then some ([⟨column, value⟩], rest)
      else none
  | _ => none

/-- The table and the assignments with the condition after them, which is about a key. -/
def readKey? (schema table : String) : List Assignment × Statement → Option RowUpdate
  | (assignments,
      .words "main." :: .name keyColumn :: .words " = " :: .param key _ :: .words " RETURNING " ::
        _) => some ⟨schema, table, assignments, keyColumn, key⟩
  | _ => none

/-- What a statement changes, if it is one that changes rows with a key. -/
def readUpdate? : Statement → Option RowUpdate
  | .words "UPDATE " :: .name schema :: .words "." :: .name table :: .words " AS main SET " ::
      rest => (readAssignments? rest).bind (readKey? schema table)
  | _ => none

/-- The assignments of a list are read one by one. -/
theorem readAssignments?_listed (e : Entity) (a : Assignment) (assignments : List Assignment)
    (rest : Statement) :
    readAssignments? (listed ", " ((a :: assignments).map fun a =>
      [.name a.column, .words " = "] ++ a.source e) ++ (words " WHERE " ++ rest)) =
        some (a :: assignments, rest) := by
  have hsource (a : Assignment) :
      ∃ source, a.source e = [source] ∧ readSource? source = some a.value := by
    obtain ⟨column, value⟩ := a
    cases value with
    | some value => exact ⟨_, rfl, rfl⟩
    | none => exact ⟨_, rfl, rfl⟩
  induction assignments generalizing a with
  | nil =>
      obtain ⟨source, hpiece, hread⟩ := hsource a
      rw [List.map_singleton, listed_singleton, hpiece]
      show (readSource? source).bind _ = _
      rw [hread]
      rfl
  | cons b assignments ih =>
      obtain ⟨source, hpiece, hread⟩ := hsource a
      rw [List.map_cons, List.map_cons, listed_cons_cons, hpiece, List.append_assoc,
        List.append_assoc]
      show (readSource? source).bind _ = _
      rw [hread, Option.bind_some, if_pos rfl]
      exact congrArg (Option.map _) (ih b)

/-- The statement for an update changes the row with the key by the assignments that are to be made;
when there are none, it is not one that changes anything but reads rows. -/
theorem readUpdate?_update (e : Entity) (id : Value) (data : Record) (touch : Bool) :
    (change e data touch ≠ [] → readUpdate? (Sql.update e id data touch) =
      some ⟨e.schema, e.table, change e data touch, e.primaryKey, id⟩) ∧
    (change e data touch = [] →
      ∃ rest, Sql.update e id data touch = words "SELECT " ++ rest) := by
  unfold Sql.update
  cases change e data touch with
  | nil =>
      refine ⟨fun hne => absurd rfl hne, fun _ => ?_⟩
      simp only [List.append_assoc]
      exact ⟨_, rfl⟩
  | cons a assignments =>
      refine ⟨fun _ => ?_, nofun⟩
      have hread := readAssignments?_listed e a assignments
      simp only [List.append_assoc] at hread ⊢
      exact congrArg (·.bind (readKey? e.schema e.table)) (hread _)

/-! ### Both -/

/-- An update writes exactly the assignments that it is to make: in memory to the first row with the
key and to nothing else, in a database by a statement whose list of assignments has each of them
once; when there is none, this statement only reads.  The primary key is not assigned, unless it is
the timestamp that is touched. -/
theorem update_writes_permitted_columns (m : Memory) (e : Entity) (id : Value) (data : Record)
    (touch : Bool) (hdata : (Record.keys data).Nodup) :
    RowUpdated e id data touch m (Storage.updateByKey e id data touch m).2 ∧
      ((∃ a, Assigns e data touch a) →
        ∃ assignments, readUpdate? (Sql.update e id data touch) =
            some ⟨e.schema, e.table, assignments, e.primaryKey, id⟩ ∧
          (assignments.map (·.column)).Nodup ∧ ∀ a, a ∈ assignments ↔ Assigns e data touch a) ∧
      ((∀ a, ¬Assigns e data touch a) →
        ∃ rest, Sql.update e id data touch = words "SELECT " ++ rest) ∧
      ∀ value, Assigns e data touch ⟨e.primaryKey, value⟩ →
        value = none ∧ touch = true ∧ e.primaryKey = e.updatedAt := by
  obtain ⟨hchanges, hreads⟩ := readUpdate?_update e id data touch
  refine ⟨rowUpdated_updateByKey m e id touch hdata, ?_, ?_, fun _ => Assigns.of_primaryKey⟩
  · rintro ⟨a, ha⟩
    have hne : change e data touch ≠ [] := List.ne_nil_of_mem (mem_change.mpr ha)
    exact ⟨_, hchanges hne, nodup_columns_change hdata, fun _ => mem_change⟩
  · intro hnone
    exact hreads (List.eq_nil_iff_forall_not_mem.mpr fun a ha => hnone a (mem_change.mp ha))

/-- Books with columns that are declared, among them the timestamp of changes. -/
def Bookshop.datedBooks : Entity :=
  { Bookshop.books with
    columns := [⟨"id", false, true, "bigint", none⟩, ⟨"title", false, false, "text", none⟩,
      ⟨"updated_at", true, true, "timestamptz", none⟩] }

open Bookshop in
/-- Of a key, a publisher and a title, the title is written to the second book, with the time. -/
theorem update_writes_permitted_columns_books :
    let data : Record := [("id", .ofInt 9), ("publisher", .string "Press"),
      ("title", .string "Changes")]
    let s := Sql.update datedBooks (.ofInt 2) data true
    (Record.keys data).Nodup ∧
      RowUpdated datedBooks (.ofInt 2) data true (store "secret")
        (Storage.updateByKey datedBooks (.ofInt 2) data true (store "secret")).2 ∧
      (∃ assignments, readUpdate? s = some ⟨"public", "books", assignments, "id", .ofInt 2⟩ ∧
        (assignments.map (·.column)).Nodup ∧
        ∀ a, a ∈ assignments ↔ Assigns datedBooks data true a) ∧
      s.text = "UPDATE \"public\".\"books\" AS main SET \"title\" = $1::text, " ++
        "\"updated_at\" = NOW() WHERE main.\"id\" = $2::bigint RETURNING main.\"id\" AS \"id\", " ++
        "main.\"title\" AS \"title\", main.\"updated_at\" AS \"updated_at\"" := by
  intro data s
  have hdata : (Record.keys data).Nodup := by decide
  have htitle : Assigns datedBooks data true ⟨"title", some (.string "Changes")⟩ :=
    .given (by simp [data]) (.inr (by decide)) (by decide)
  obtain ⟨hmemory, hstatement, -⟩ := update_writes_permitted_columns (store "secret") datedBooks
    (.ofInt 2) data true hdata
  exact ⟨hdata, hmemory, hstatement ⟨_, htitle⟩, by decide +kernel⟩

end EntityService
