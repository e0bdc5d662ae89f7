import EntityService.Proofs.StoredRows

/-!
# Rows are as they are declared

However repositories are used, the rows of an entity that declares its columns have those columns,
with a value in each one that may not be null.

## Main definitions

* `Entity.FillsColumns` — a new row can be given a value in each column that may not be null
* `IsComplete` — a row has the columns of its entity, and no null where there may be none
* `Operation.IsChecked` — an operation writes data that break no rule
* `Memory.useAt` — the store after uses of repositories, each at its reading of the clock

## Main results

* `Entity.of_admits` — what data give that break no rule
* `isComplete_insertRow`, `IsComplete.putAll_assigned` — new rows are complete, changed rows stay so
* `holds_useAt` — what checked operations keep, all rows have however repositories are used
* `stored_rows_complete` — the rows of a store are complete

## Design notes

A column that may not be null gets its value from the data, which have to give it when there is no
default; from the default; from the clock, when it is a timestamp; or from the store, when it is the
primary key.  A default that is a call, which the store in memory does not make, is the one case in
which nothing of this happens.
-/

namespace EntityService

open EntityService.Config EntityService.Json EntityService.Model EntityService.Query
open EntityService.Store EntityService.Validation

/-! ### Data that break no rule -/

namespace Model.Entity

variable {e : Entity} {mode : Mode} {data : Record}

/-- Data that break no rule hold no null where there may be none, and give what is required. -/
theorem of_admits (h : e.admits mode data) :
    (∀ member ∈ data, ∀ c ∈ e.column? member.1, c.nullable = false → member.2.isNull = false) ∧
      (mode = .create →
        ∀ column ∈ requiredColumns e, (Record.cell data column).isNull = false) := by
  obtain ⟨hrequired, -, hnulled⟩ := admits_iff.mp h
  exact ⟨hnulled, hrequired⟩

/-- Names tell the columns of an entity apart, its primary key is one of them, and each one that may
not be null but has a default, other than the primary key and the timestamps, has a value by
default. -/
structure FillsColumns (e : Entity) : Prop where
  nonempty : e.columns ≠ []
  key : e.declares e.primaryKey
  distinct : ∀ c ∈ e.columns, ∀ d ∈ e.columns, c.name = d.name → c = d
  defaults : ∀ c ∈ e.columns, c.nullable = false →
    c.name ∉ [e.primaryKey, e.createdAt, e.updatedAt] → c.hasDefault →
      (Memory.literalDefault c).isNull = false

theorem FillsColumns.column?_eq (h : e.FillsColumns) {c : Column} (hc : c ∈ e.columns) :
    e.column? c.name = some c :=
  column?_of_mem h.distinct hc

end Model.Entity

/-! ### Complete rows -/

/-- A row has the columns of its entity, a key, and a value in each column that may not be null. -/
structure IsComplete (e : Entity) (row : Record) : Prop where
  columns : HasColumns e row
  key : (Record.cell row e.primaryKey).isNull = false
  filled : ∀ c ∈ e.columns, c.nullable = false → (Record.cell row c.name).isNull = false

/-! ### The parts of rows -/

section Parts

variable {e : Entity} {data : Record} {c : Column}

/-- The reading of the clock is not null. -/
theorem isNull_of_mem_stampsAt {clock : String} {columns : List String} {member : String × Value}
    (h : member ∈ Memory.stampsAt e clock columns data) : member.2.isNull = false := by
  obtain ⟨column, -, rfl⟩ := List.mem_map.mp h
  rfl

/-- A timestamp that the data do not give is stamped. -/
theorem mem_keys_stampsAt {columns : List String} (hc : c ∈ e.columns) (hcolumn : c.name ∈ columns)
    (hdata : c.name ∉ Record.keys data) (clock : String) :
    c.name ∈ Record.keys (Memory.stampsAt e clock columns data) := by
  refine List.mem_map.mpr ⟨(c.name, .string clock), List.mem_map_of_mem ?_, rfl⟩
  refine List.mem_filter.mpr ⟨hcolumn, ?_⟩
  rw [Entity.stamps, declares_of_mem hc, Bool.true_and, Bool.not_eq_true']
  exact eq_false_of_ne_true fun hhas => hdata (Record.mem_keys_of_has hhas)

/-- The data write a declared column that they have. -/
theorem mem_keys_writable (hc : c ∈ e.columns) :
    c.name ∈ Record.keys (e.writable data) ↔ c.name ∈ Record.keys data := by
  have htakes : e.takesKey c.name := by
    rw [Entity.takesKey, declares_of_mem hc, Bool.or_true]
  rw [Entity.writable, Record.mem_keys_keep, and_iff_right htakes]

/-- The key of a row is not null once the store has seen to it. -/
theorem isNull_cell_assignKey (store : Memory) (e : Entity) (row : Record) :
    (Record.cell (store.assignKey e row).1 e.primaryKey).isNull = false := by
  have hnew : (store.newKey e).1.isNull = false := by
    unfold Memory.newKey
    split <;> rfl
  unfold Memory.assignKey
  dsimp only
  split
  · rw [Record.cell_put_self]
    exact hnew
  · next hgiven => exact eq_false_of_ne_true hgiven

/-- A row keeps a key when it is changed. -/
theorem isNull_key_putAll_assigned {row : Record}
    (h : (Record.cell row e.primaryKey).isNull = false) (clock : String) (data : Record)
    (touch : Bool) :
    (Record.cell (Record.putAll row (Memory.assigned e clock data touch)) e.primaryKey).isNull =
      false := by
  rcases Record.cell_putAll row (Memory.assigned e clock data touch) e.primaryKey with hold | hnew
  · rw [hold]
    exact h
  · rcases List.mem_append.mp hnew with hwritten | hstamp
    · -- the primary key is never written
      simpa using (List.mem_filter.mp hwritten).2
    · split at hstamp
      · exact isNull_of_mem_stampsAt hstamp
      · cases hstamp

theorem cell_assignKey_of_ne (store : Memory) {column : String} (h : column ≠ e.primaryKey)
    (row : Record) : Record.cell (store.assignKey e row).1 column = Record.cell row column := by
  unfold Memory.assignKey
  dsimp only
  split
  · rw [Record.cell, Record.get?_put_of_ne h, Record.cell]
  · rfl

variable (he : e.FillsColumns)

include he

/-- What is written to a column that may not be null is not null. -/
theorem isNull_of_mem_writable {mode : Mode} (hdata : e.admits mode data) (hc : c ∈ e.columns)
    (hnullable : c.nullable = false) {v : Value} (h : (c.name, v) ∈ e.writable data) :
    v.isNull = false :=
  (Entity.of_admits hdata).1 _ (List.mem_filter.mp h).1 c (he.column?_eq hc) hnullable

/-- The default of a column that is not the primary key. -/
theorem cell_defaults (hc : c ∈ e.columns) (hkey : c.name ≠ e.primaryKey) :
    Record.cell (Memory.defaults e) c.name = Memory.literalDefault c := by
  have hmem : c.name ∈ Record.keys ((e.columns.filter fun c => c.name != e.primaryKey).map fun c =>
      (c.name, Memory.literalDefault c)) := by
    rw [Record.keys, List.map_map]
    exact List.mem_map.mpr ⟨c, List.mem_filter.mpr ⟨hc, bne_iff_ne.mpr hkey⟩, rfl⟩
  obtain ⟨d, hd, heq⟩ := List.mem_map.mp (Record.mem_of_cell_putAll (r := []) hmem)
  obtain ⟨hname, hcell⟩ := Prod.mk.inj heq
  rw [he.distinct d (List.mem_filter.mp hd).1 c hc hname] at hcell
  exact hcell.symm

/-- A column that may not be null and that the data do not give is the primary key or a timestamp,
or has a default. -/
theorem isNull_literalDefault_of_not_mem (hdata : e.admits .create data) (hc : c ∈ e.columns)
    (hnullable : c.nullable = false) (hordinary : c.name ∉ [e.primaryKey, e.createdAt, e.updatedAt])
    (hmissing : c.name ∉ Record.keys data) : (Memory.literalDefault c).isNull = false := by
  refine he.defaults c hc hnullable hordinary ?_
  by_contra hnone
  have hrequired : c.name ∈ requiredColumns e :=
    List.mem_map_of_mem (List.mem_filter.mpr ⟨hc, by simp [hnullable, hnone, hordinary]⟩)
  have hgiven := (Entity.of_admits hdata).2 rfl c.name hrequired
  rw [Record.cell_of_not_mem hmissing] at hgiven
  cases hgiven

/-- A new row has a value in each column that may not be null, apart from its primary key. -/
theorem isNull_cell_newRow (hdata : e.admits .create data) (clock : String) (hc : c ∈ e.columns)
    (hnullable : c.nullable = false) (hkey : c.name ≠ e.primaryKey) :
    (Record.cell (Memory.newRow e clock data) c.name).isNull = false := by
  unfold Memory.newRow
  by_cases hstamp : c.name ∈ Record.keys (Memory.stampsAt e clock [e.createdAt, e.updatedAt] data)
  · exact isNull_of_mem_stampsAt (Record.mem_of_cell_putAll hstamp)
  by_cases hwritten : c.name ∈ Record.keys (e.writable data)
  · rw [Record.cell_putAll_of_not_mem hstamp]
    exact isNull_of_mem_writable he hdata hc hnullable (Record.mem_of_cell_putAll hwritten)
  -- neither the clock nor the data give the value, so it is the default
  rw [Record.cell_putAll_of_not_mem hstamp, Record.cell_putAll_of_not_mem hwritten,
    cell_defaults he hc hkey]
  have hmissing : c.name ∉ Record.keys data := mt (mem_keys_writable hc).mpr hwritten
  have htimestamp : c.name ∉ [e.createdAt, e.updatedAt] :=
    fun hmem => hstamp (mem_keys_stampsAt hc hmem hmissing clock)
  exact isNull_literalDefault_of_not_mem he hdata hc hnullable
    (List.not_mem_cons_of_ne_of_not_mem hkey htimestamp) hmissing

end Parts

/-! ### Rows that are added and changed -/

section Rows

variable {e : Entity} (he : e.FillsColumns) {data : Record}

include he

/-- A new row is complete when its data break no rule. -/
theorem isComplete_insertRow (hdata : e.admits .create data) (store : Memory) :
    IsComplete e (store.insertRow e data).1 where
  columns := hasColumns_insertRow he.nonempty he.key store data
  key := isNull_cell_assignKey store e _
  filled := by
    intro c hc hnullable
    change (Record.cell (store.assignKey e (Memory.newRow e store.clock data)).1 _).isNull = false
    by_cases hkey : c.name = e.primaryKey
    · rw [hkey]
      exact isNull_cell_assignKey store e _
    · rw [cell_assignKey_of_ne store hkey]
      exact isNull_cell_newRow he hdata store.clock hc hnullable hkey

/-- A complete row stays complete when it is changed by data that break no rule. -/
theorem IsComplete.putAll_assigned {row : Record} (h : IsComplete e row)
    (hdata : e.admits .update data) (clock : String) (touch : Bool) :
    IsComplete e (Record.putAll row (Memory.assigned e clock data touch)) where
  columns := hasColumns_putAll_assigned he.nonempty h.columns clock data touch
  key := isNull_key_putAll_assigned h.key clock data touch
  filled := by
    intro c hc hnullable
    rcases Record.cell_putAll row (Memory.assigned e clock data touch) c.name with hold | hnew
    · rw [hold]
      exact h.filled c hc hnullable
    · rcases List.mem_append.mp hnew with hwritten | hstamp
      · exact isNull_of_mem_writable he hdata hc hnullable (List.mem_filter.mp hwritten).1
      · split at hstamp
        · exact isNull_of_mem_stampsAt hstamp
        · cases hstamp

end Rows

/-! ### Uses of repositories -/

/-- An operation writes, if it does, to an entity of a model, and its data break no rule of it. -/
def Store.Operation.IsChecked (m : Model) : Operation → Prop
  | insert e data => e ∈ m.entities ∧ e.admits .create data
  | updateByKey e _ data _ => e ∈ m.entities ∧ e.admits .update data
  | _ => True

theorem Store.Operation.allowsReading_isChecked (m : Model) : AllowsReading (IsChecked m) :=
  ⟨fun _ _ => trivial, fun _ _ _ _ => trivial, fun _ => trivial, fun _ => trivial⟩

/-- The store after uses of repositories, each an operation at its reading of the clock on a
repository of its own, of which anything may have been asked. -/
def Store.Memory.useAt (uses : List (String × Repository × Terminal)) (store : Memory) : Memory :=
  uses.foldl (fun store (clock, r, t) => (t.run ⟨r, { store with clock }⟩).2.store) store

section Uses

variable {m : Model} {R : Entity → Record → Prop} {store : Memory}

/-- What checked operations keep, all rows have however repositories are used. -/
theorem holds_useAt (hm : m.IsResolved)
    (hkeeps : ∀ operation : Operation, operation.IsChecked m → operation.Keeps m R)
    {uses : List (String × Repository × Terminal)}
    (huses : ∀ use ∈ uses, use.2.1.entity ∈ m.entities) (h : store.Holds m R) :
    (store.useAt uses).Holds m R := by
  induction uses generalizing store with
  | nil => exact h
  | cons use rest ih =>
      obtain ⟨clock, r, t⟩ := use
      obtain ⟨hentity, hrest⟩ := List.forall_mem_cons.mp huses
      obtain ⟨-, operations, hchecked, hafter⟩ :=
        Session.operates_terminal (Operation.allowsReading_isChecked m)
          (fun _ hadmits => ⟨hentity, hadmits⟩) (fun _ _ _ hadmits => ⟨hentity, hadmits⟩) t
          ⟨r, { store with clock }⟩ rfl
      have hstep : ((t.run ⟨r, { store with clock }⟩).2.store).Holds m R := by
        rw [hafter]
        exact holds_operate hm (fun operation hoperation =>
          hkeeps operation (hchecked operation hoperation)) h
      exact ih hrest hstep

/-- Checked operations keep the rows of an entity complete whose columns can be filled. -/
theorem keeps_of_isChecked {operation : Operation} (h : operation.IsChecked m) :
    operation.Keeps m fun e row => e.FillsColumns → IsComplete e row := by
  cases operation with
  | insert e data =>
      exact ⟨h.1, fun store he => isComplete_insertRow he h.2 store⟩
  | updateByKey e id data touch =>
      exact ⟨h.1, fun clock row hrow he => (hrow he).putAll_assigned he h.2 clock touch⟩
  | _ => exact trivial

end Uses

/-! ### Entities of configurations -/

/-- The default of a column is a call, which a database makes: a text that ends in a closing
parenthesis, but for white space. -/
def Config.ColumnDeclaration.IsCall (c : ColumnDeclaration) : Prop :=
  ∃ s, c.default = some (.string s) ∧ (Text.trimEnd s).toList.getLast? = some ')'

namespace Model

/-- A default that is no call is a value. -/
theorem isNull_literalDefault_columnOf {x : ColumnDeclaration} (hcall : ¬x.IsCall)
    (hdefault : (columnOf x).hasDefault) :
    (Memory.literalDefault (columnOf x)).isNull = false := by
  obtain ⟨v, hv⟩ := Option.isSome_iff_exists.mp hdefault
  have hcolumn : (columnOf x).default = some v := hv
  obtain ⟨hdeclared, hvalue⟩ := Option.filter_eq_some_iff.mp hv
  unfold Memory.literalDefault
  rw [hcolumn]
  cases v with
  | string s => exact congrArg Value.isNull (if_neg fun hend => hcall ⟨s, hdeclared, hend⟩)
  | null => cases hvalue
  | _ => rfl

/-- The columns of a declared entity can be filled, if their names are told apart and no default is
a call of a column that may not be null. -/
theorem fillsColumns_entityOf {relations : List RelationDeclaration} {d : EntityDeclaration}
    (hkey : (entityOf relations d).declares d.primaryKey) (hcolumns : d.columns ≠ [])
    (hnames : (d.columns.map (·.name)).Nodup)
    (hdefaults : ∀ c ∈ d.columns, c.nullable = false → ¬c.IsCall) :
    (entityOf relations d).FillsColumns where
  nonempty := mt columnsOf_eq_nil_iff.mp hcolumns
  key := hkey
  distinct := eq_of_mem_columnsOf hnames
  defaults := by
    intro c hc hnullable hordinary hdefault
    rcases of_mem_columnsOf hc with ⟨x, hx, rfl⟩ | ⟨htimestamp, -, -⟩
    · exact isNull_literalDefault_columnOf (hdefaults x hx hnullable) hdefault
    · exact absurd (List.mem_cons_of_mem _ htimestamp) hordinary

end Model

/-- However the repositories of a model are used, with whatever data and however the uses end, the
rows of an entity that declares its columns have just those columns, a key, and a value in each
column that may not be null.  The columns have different names, and no column that may not be null
has a default that is a call. -/
theorem stored_rows_complete {config : Configuration} {m : Model}
    (hmodel : Model.resolve config = .ok m) {empty : Memory} (hempty : empty.tables = [])
    {uses : List (String × Repository × Terminal)}
    (huses : ∀ use ∈ uses, use.2.1.entity ∈ m.entities) {d : EntityDeclaration}
    (hd : d ∈ config.entities) (hcolumns : d.columns ≠ [])
    (hnames : (d.columns.map (·.name)).Nodup)
    (hdefaults : ∀ c ∈ d.columns, c.nullable = false → ¬c.IsCall) :
    ∀ row ∈ (empty.useAt uses).rows d.id, IsComplete (Model.entityOf config.relations d) row := by
  have hm := Model.isResolved_of_resolve hmodel
  obtain ⟨-, rfl⟩ := Model.of_resolve hmodel
  have he := List.mem_map_of_mem (f := Model.entityOf config.relations) hd
  have hkey := hm.declaresKey _ he (mt Model.columnsOf_eq_nil_iff.mp hcolumns)
  have hrows := holds_useAt hm (fun _ => keeps_of_isChecked) huses (holds_of_tables_eq_nil hempty)
  exact fun row hrow => hrows _ he row hrow
    (Model.fillsColumns_entityOf hkey hcolumns hnames hdefaults)

/-! ### Tickets -/

namespace Tickets

/-- Tickets with a title that has to be given and a state, which has a default. -/
def tickets (state : String) : EntityDeclaration where
  id := "tickets"
  schema := "public"
  table := "tickets"
  pathSegment := "tickets"
  primaryKey := "id"
  createdAt := "created_at"
  updatedAt := "updated_at"
  columns := [⟨"id", .simple "bigserial", false, none⟩, ⟨"title", .simple "text", false, none⟩,
    ⟨"state", .simple "text", false, some (.string state)⟩]
  filterableFields := []
  activeFlag := none
  defaultSort := none
  aggregates := []
  operations := ["create", "read", "update", "delete"]
  sensitiveColumns := []
  validation := []
  pageSize := 25

/-- The entity of tickets. -/
def ticket (state : String) : Entity := Model.entityOf [] (tickets state)

/-- A store without rows. -/
def empty (state : String) : Memory where
  model := ⟨[ticket state]⟩
  clock := ""
  identifiers := fun n => ⟨(Nat.toDigits 16 n).leftpad 32 '0'⟩

/-- A use of a repository of tickets, at some time. -/
def use (state : String) (t : Terminal) : String × Repository × Terminal :=
  ("2000-01-01T00:00:00+00:00", .of ⟨[ticket state]⟩ (ticket state), t)

theorem entity_use (state : String) (t : Terminal) :
    (use state t).2.1.entity ∈ [ticket state] :=
  List.mem_singleton.mpr rfl

end Tickets

open Tickets in
/-- A ticket that is opened and renamed is complete, and so is one that comes before data that are
refused. -/
theorem stored_rows_complete_tickets :
    let uses := [.create [("title", .string "Lamp")],
      .updateById (.ofInt 1) [("colour", .null), ("title", .string "Lamps")] true,
      .updateById (.ofInt 1) [("state", .null)] true,
      .createMultiple [[("title", .string "Door")], [("state", .string "closed")]]].map (use "open")
    ((empty "open").useAt uses).rows "tickets" ≠ [] ∧
      ∀ row ∈ ((empty "open").useAt uses).rows "tickets", IsComplete (ticket "open") row := by
  intro uses
  have hmodel : Model.resolve ⟨[tickets "open"], []⟩ = .ok ⟨[ticket "open"]⟩ := rfl
  have huses : ∀ use ∈ uses, use.2.1.entity ∈ [ticket "open"] := by
    intro u hu
    obtain ⟨t, -, rfl⟩ := List.mem_map.mp hu
    exact entity_use _ t
  have hopen : (Text.trimEnd "open").toList.getLast? ≠ some ')' := by decide
  have hdefaults : ∀ c ∈ (tickets "open").columns, c.nullable = false → ¬c.IsCall := by
    rintro c hc - ⟨s, hs, hend⟩
    simp only [tickets, List.mem_cons, List.not_mem_nil, or_false] at hc
    rcases hc with rfl | rfl | rfl
    · cases hs
    · cases hs
    · obtain rfl : "open" = s := Value.string.inj (Option.some.inj hs)
      exact hopen hend
  have hcomplete := @stored_rows_complete _ _ hmodel (empty "open") rfl uses huses (tickets "open")
    List.mem_cons_self (List.cons_ne_nil _ _) (by decide) hdefaults
  have hlength : (((empty "open").useAt uses).rows "tickets").length = 2 := by decide +kernel
  exact ⟨List.ne_nil_of_length_eq_add_one hlength, hcomplete⟩

open Tickets in
/-- White space after a call does not make it a value: a state that may not be null is null when its
default does not end in the parenthesis itself. -/
theorem null_state_of_call_with_blank :
    Model.resolve ⟨[tickets "now() "], []⟩ = .ok ⟨[ticket "now() "]⟩ ∧
      ((tickets "now() ").columns.map (·.name)).Nodup ∧
      (∀ c ∈ (tickets "now() ").columns, c.nullable = false → ∀ s, c.default = some (.string s) →
        s.toList.getLast? ≠ some ')') ∧
      ((ticket "now() ").column? "state").any (fun c => !c.nullable) ∧
      (((empty "now() ").useAt [use "now() " (.create [("title", .string "Lamp")])]).rows
        "tickets").map (fun row => (Record.cell row "state").isNull) = [true] := by
  refine ⟨rfl, by decide, ?_, by decide, by decide +kernel⟩
  intro c hc _ s hs
  simp only [tickets, List.mem_cons, List.not_mem_nil, or_false] at hc
  rcases hc with rfl | rfl | rfl
  · cases hs
  · cases hs
  · obtain rfl : "now() " = s := Value.string.inj (Option.some.inj hs)
    decide

end EntityService
