import EntityService.Model.Resolve
import EntityService.Store.Selection
import EntityService.Store.Storage
import EntityService.Uuid

/-!
# Rows in memory

A store that keeps the rows of all entities in lists.

## Main definitions

* `Table` — the rows of an entity and the last key given to one
* `Memory` — the tables of a model
* `Memory.assignKey` — the key of a new row
* `Memory.insertRow`, `Memory.updateRow`, `Memory.deleteRows` — the operations that change rows
* `Memory.seed` — put rows into a table as they are

## Design notes

A key that is given for a new row moves the last key forward, so that keys given by the store stay
apart from it.  The last key is counted in 64 bits and wraps round: what comes after the greatest
number is the least one.  Time and random identifiers come from outside: the store is told the
reading of the clock, and takes identifiers from a sequence.
-/

namespace EntityService.Store

open EntityService.Json EntityService.Model EntityService.Number EntityService.Query

/-- The rows of an entity in the order in which they were added, and the last key given to one. -/
structure Table where
  rows : List Record := []
  lastKey : Int := 0
  deriving Repr

/-- A query as it was run, with the name of the operation. -/
structure Executed where
  entity : String
  operation : String
  calls : Calls
  deriving Repr

/-- The tables of a model by the ids of the entities.  `clock` is the reading of the clock,
`identifiers` the sequence of random identifiers with the count of those that are used up, and `log`
the queries that were run, if they are recorded. -/
structure Memory where
  model : Model
  tables : List (String × Table) := []
  clock : String
  identifiers : Nat → Uuid
  used : Nat := 0
  recording : Bool := false
  log : List Executed := []

namespace Memory

/-- The table of an entity. -/
def table (m : Memory) (id : String) : Table := (Record.get? m.tables id).getD {}

/-- The rows of an entity. -/
def rows (m : Memory) (id : String) : List Record := (m.table id).rows

/-- Replace the table of an entity. -/
def setTable (m : Memory) (id : String) (t : Table) : Memory :=
  { m with tables := Record.put id t m.tables }

/-- Replace the rows of an entity. -/
def setRows (m : Memory) (id : String) (rows : List Record) : Memory :=
  m.setTable id { m.table id with rows }

/-- Record a query. -/
def record (m : Memory) (operation : String) (p : Plan) : Memory :=
  if m.recording then
    { m with log := m.log ++ [{ entity := p.entity.id, operation, calls := p.calls }] }
  else m

@[simp] theorem record_model (m : Memory) (operation : String) (p : Plan) :
    (m.record operation p).model = m.model := by
  unfold record
  split <;> rfl

@[simp] theorem record_rows (m : Memory) (operation : String) (p : Plan) (id : String) :
    (m.record operation p).rows id = m.rows id := by
  unfold record
  split <;> rfl

@[simp] theorem record_clock (m : Memory) (operation : String) (p : Plan) :
    (m.record operation p).clock = m.clock := by
  unfold record
  split <;> rfl

theorem table_setTable_self (m : Memory) (id : String) (t : Table) :
    (m.setTable id t).table id = t := by
  rw [table, setTable, Record.get?_put_self, Option.getD_some]

theorem table_setTable_of_ne (m : Memory) {id other : String} (h : other ≠ id) (t : Table) :
    (m.setTable id t).table other = m.table other := by
  rw [table, setTable, Record.get?_put_of_ne h, table]

theorem rows_setRows_self (m : Memory) (id : String) (rows : List Record) :
    (m.setRows id rows).rows id = rows := by
  rw [Memory.rows, setRows, table_setTable_self]

theorem rows_setRows_of_ne (m : Memory) {id other : String} (h : other ≠ id)
    (rows : List Record) : (m.setRows id rows).rows other = m.rows other := by
  rw [Memory.rows, setRows, table_setTable_of_ne _ h, Memory.rows]

/-- The number after a number of 64 bits.  The greatest is followed by the least. -/
def following (n : Int) : Int := Int.bmod (n + 1) 0x10000000000000000

/-- A number is followed by its successor when it is not the greatest. -/
theorem following_eq {n : Int} (hlow : 0 ≤ n) (hroom : n < Double.maxInt64) :
    following n = n + 1 := by
  unfold Double.maxInt64 at hroom
  exact Int.bmod_eq_of_le (by omega) (by omega)

/-- The next key of an entity. -/
def newKey (m : Memory) (e : Entity) : Value × Memory :=
  match e.keyType with
  | .uuid => (.string (m.identifiers m.used).text, { m with used := m.used + 1 })
  | _ =>
    let t := m.table e.id
    let next := following t.lastKey
    (.ofInt next, m.setTable e.id { t with lastKey := next })

/-- Move the last key of an entity forward to a key that is given, if it is a number. -/
def noteKey (m : Memory) (e : Entity) (key : Value) : Memory :=
  match numberOf? key with
  | some x =>
    let t := m.table e.id
    m.setTable e.id { t with lastKey := max t.lastKey x.toInt }
  | none => m

/-- A new row with its key, which is made when the row has none. -/
def assignKey (m : Memory) (e : Entity) (row : Record) : Record × Memory :=
  let key := Record.cell row e.primaryKey
  if key.isNull then
    let (key, m) := m.newKey e
    (Record.put e.primaryKey key row, m)
  else (row, m.noteKey e key)

/-- Add a row at the end of a table, with its key. -/
def addRow (m : Memory) (e : Entity) (row : Record) : Record × Memory :=
  let (row, m) := m.assignKey e row
  (row, m.setRows e.id (m.rows e.id ++ [row]))

/-- The value a column has by default.  A text that ends in a closing parenthesis is a call for the
database, and has no value here. -/
def literalDefault (c : Column) : Value :=
  match c.default with
  | some (.string s) =>
    if (Text.trimEnd s).toList.getLast? = some ')' then .null else .string s
  | some v => v
  | none => .null

/-- The columns of a new row with their defaults, without the primary key. -/
def defaults (e : Entity) : Record :=
  Record.ofList ((e.columns.filter fun c => c.name != e.primaryKey).map fun c =>
    (c.name, literalDefault c))

/-- The timestamps that data do not give, with the reading of the clock. -/
def stampsAt (e : Entity) (clock : String) (columns : List String) (data : Record) : Record :=
  (columns.filter fun c => e.stamps c data).map fun c => (c, .string clock)

/-- A new row without its key: defaults, data and timestamps. -/
def newRow (e : Entity) (clock : String) (data : Record) : Record :=
  Record.putAll (Record.putAll (defaults e) (e.writable data))
    (stampsAt e clock [e.createdAt, e.updatedAt] data)

/-- Add a row for data, and give it. -/
def insertRow (m : Memory) (e : Entity) (data : Record) : Record × Memory :=
  m.addRow e (newRow e m.clock data)

/-- What a change assigns: the data that are written, without the primary key, and the timestamp of
changes if it is to be set and the data do not give it. -/
def assigned (e : Entity) (clock : String) (data : Record) (touch : Bool) : Record :=
  Record.keep (e.writable data) (fun key => key != e.primaryKey) ++
    if touch then stampsAt e clock [e.updatedAt] data else []

/-- A row has a key. -/
def hasKey (e : Entity) (id : Value) (row : Record) : Bool :=
  sameCell (Record.cell row e.primaryKey) id

/-- Change the first row that passes a test; give the changed row and all rows. -/
def changeFirst (test : Record → Bool) (change : Record → Record) :
    List Record → Option (Record × List Record)
  | [] => none
  | row :: rest =>
    if test row then some (change row, change row :: rest)
    else (changeFirst test change rest).map fun (changed, rest) => (changed, row :: rest)

/-- The first row that passes a test is changed in its place, if there is one. -/
theorem changeFirst_eq (test : Record → Bool) (change : Record → Record) (rows : List Record) :
    changeFirst test change rows =
      (rows.find? test).map fun row =>
        (change row, rows.modify (rows.findIdx test) change) := by
  induction rows with
  | nil => rfl
  | cons row rest ih =>
      unfold changeFirst
      cases h : test row with
      | true => simp [List.findIdx_cons, h]
      | false =>
          rw [if_neg Bool.false_ne_true, ih]
          cases hrest : rest.find? test <;> simp [List.findIdx_cons, h, hrest]

/-- Change the first row with a key, and give it. -/
def updateRow (m : Memory) (e : Entity) (id : Value) (data : Record) (touch : Bool) :
    Option Record × Memory :=
  let members := assigned e m.clock data touch
  match changeFirst (hasKey e id) (fun row => Record.putAll row members) (m.rows e.id) with
  | some (row, rows) => (some row, m.setRows e.id rows)
  | none => (none, m)

/-- Remove the rows that have the key of a row of the plan, and give the count of the plan's
rows. -/
def deleteRows (m : Memory) (p : Plan) : Nat × Memory :=
  let doomed := limited p.calls.limit? (selection p (m.rows p.entity.id))
  let keys := doomed.map fun row => Record.cell row p.entity.primaryKey
  let left := (m.rows p.entity.id).filter fun row => !keys.any fun key => hasKey p.entity key row
  (doomed.length, m.setRows p.entity.id left)

/-! ### The rows after a change -/

section Rows

variable (m : Memory) (e : Entity) (id : Value) (data : Record) (touch : Bool) (p : Plan)

theorem rows_lastKey (table : String) (n : Int) (other : String) :
    (m.setTable table { m.table table with lastKey := n }).rows other = m.rows other := by
  by_cases h : other = table
  · subst h
    rw [rows, table_setTable_self, rows]
  · rw [rows, table_setTable_of_ne _ h, rows]

theorem newKey_rows (other : String) : (m.newKey e).2.rows other = m.rows other := by
  unfold newKey
  split
  · rfl
  · exact m.rows_lastKey e.id _ other

theorem noteKey_rows (key : Value) (other : String) :
    (m.noteKey e key).rows other = m.rows other := by
  unfold noteKey
  split
  · exact m.rows_lastKey e.id _ other
  · rfl

/-- To give a row its key does not change the rows that are there. -/
theorem assignKey_rows (row : Record) (other : String) :
    (m.assignKey e row).2.rows other = m.rows other := by
  unfold assignKey
  dsimp only
  split
  · exact m.newKey_rows e other
  · exact m.noteKey_rows e _ other

theorem addRow_model (row : Record) : (m.addRow e row).2.model = m.model := by
  unfold addRow assignKey newKey noteKey
  dsimp only
  split
  · split <;> rfl
  · split <;> rfl

/-- A row that is added is at the end of its table. -/
theorem addRow_rows_self (row : Record) :
    (m.addRow e row).2.rows e.id = m.rows e.id ++ [(m.addRow e row).1] := by
  simp only [addRow, rows_setRows_self, assignKey_rows]

theorem addRow_rows_of_ne (row : Record) {other : String} (h : other ≠ e.id) :
    (m.addRow e row).2.rows other = m.rows other := by
  simp only [addRow, rows_setRows_of_ne _ h, assignKey_rows]

/-- The model of a store never changes. -/
theorem insertRow_model : (m.insertRow e data).2.model = m.model := m.addRow_model e _

theorem updateRow_model : (m.updateRow e id data touch).2.model = m.model := by
  unfold updateRow
  dsimp only
  split <;> rfl

theorem deleteRows_model : (m.deleteRows p).2.model = m.model := rfl

/-- A new key is a number or a text. -/
theorem newKey_isFinite : (m.newKey e).1.IsFinite := by
  unfold newKey
  split <;> exact trivial

/-- A new row is at the end of its table. -/
theorem insertRow_rows_self :
    (m.insertRow e data).2.rows e.id = m.rows e.id ++ [(m.insertRow e data).1] :=
  m.addRow_rows_self e _

theorem insertRow_rows_of_ne {other : String} (h : other ≠ e.id) :
    (m.insertRow e data).2.rows other = m.rows other :=
  m.addRow_rows_of_ne e _ h

/-- The first row with a key is changed in its place; without one nothing is. -/
theorem updateRow_rows_self :
    (m.updateRow e id data touch).2.rows e.id =
      (m.rows e.id).modify ((m.rows e.id).findIdx (hasKey e id)) fun row =>
        Record.putAll row (assigned e m.clock data touch) := by
  unfold updateRow
  dsimp only
  rw [changeFirst_eq]
  cases h : (m.rows e.id).find? (hasKey e id) with
  | some row => exact rows_setRows_self ..
  | none =>
      have hlength : (m.rows e.id).findIdx (hasKey e id) = (m.rows e.id).length :=
        List.findIdx_eq_length.mpr fun row hrow =>
          eq_false_of_ne_true (List.find?_eq_none.mp h row hrow)
      exact (List.modify_eq_self (Nat.le_of_eq hlength.symm)).symm

/-- A change that has no row to change does nothing. -/
theorem updateRow_snd_of_fst_eq_none (h : (m.updateRow e id data touch).1 = none) :
    (m.updateRow e id data touch).2 = m := by
  unfold updateRow at h ⊢
  dsimp only at h ⊢
  split at h
  · cases h
  · rfl

theorem updateRow_rows_of_ne {other : String} (h : other ≠ e.id) :
    (m.updateRow e id data touch).2.rows other = m.rows other := by
  unfold updateRow
  dsimp only
  split
  · exact rows_setRows_of_ne _ h _
  · rfl

/-- A removal leaves the rows that do not have the key of a row of its plan. -/
theorem deleteRows_rows_self :
    (m.deleteRows p).2.rows p.entity.id =
      (m.rows p.entity.id).filter fun row =>
        !((limited p.calls.limit? (selection p (m.rows p.entity.id))).map fun row =>
          Record.cell row p.entity.primaryKey).any fun key => hasKey p.entity key row :=
  rows_setRows_self ..

theorem deleteRows_rows_of_ne {other : String} (h : other ≠ p.entity.id) :
    (m.deleteRows p).2.rows other = m.rows other :=
  rows_setRows_of_ne _ h _

/-- A removal leaves rows as they are. -/
theorem deleteRows_rows_sublist (other : String) :
    ((m.deleteRows p).2.rows other).Sublist (m.rows other) := by
  by_cases h : other = p.entity.id
  · subst h
    rw [deleteRows_rows_self]
    exact List.filter_sublist
  · simp only [deleteRows_rows_of_ne _ _ h, List.Sublist.refl]

end Rows

/-- Put rows into a table as they are, with keys for those that have none, up to the first value
that is no row. -/
def seedRows (m : Memory) (e : Entity) : List Value → Except Error Unit × Memory
  | [] => (.ok (), m)
  | .object row :: rest => (m.addRow e row).2.seedRows e rest
  | _ :: _ => (.error (.badRequest (.seedRow e.id)), m)

/-- Put rows into the table of the entity with an id. -/
def seed (id : String) (rows : List Value) : Action Memory Unit := fun m =>
  match m.model.entity? id with
  | some e => m.seedRows e rows
  | none => (.error (.notFound (.entity id)), m)

end Memory

end EntityService.Store
