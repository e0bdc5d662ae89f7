import EntityService.Proofs.Comparison
import EntityService.Proofs.NearestIntegers
import EntityService.Proofs.StoredRows

/-!
# Fresh keys

A key that the store makes for a row is not the key of another row, now or before.

## Main definitions

* `LiesBelow` — a key lies below an integer, if it stands for a number at all
* `Addition` — a row that was added to a store
* `Addition.IsFresh` — the key of a row is none of those before it
* `History.HasRoom` — the store has not run out of keys
* `Change` — an operation on a store, or rows that are put into it
* `History` — a store, and the rows that were added to it
* `History.KeepsAhead` — the last key of an entity is ahead of its keys

## Main results

* `LiesBelow.not_sameCell` — a key below an integer is not the same as this integer
* `store_run` — the store of a history is the store after the changes
* `KeepsAhead.add`, `KeepsAhead.change` — each change keeps the last key ahead
* `KeepsAhead.run` — so do changes one after the other
* `generated_keys_are_fresh` — keys that the store makes are fresh

## Design notes

Keys are compared as doubles, and integers are told apart by these up to `2 ^ 53`.  The last key of
an entity is not lowered when rows are removed, so it is ahead of the keys of removed rows as well.
A history notes the rows that are added, as the store does not remember rows that it has lost.
-/

namespace EntityService

open EntityService.Json EntityService.Model EntityService.Number EntityService.Query
open EntityService.Store

/-! ### Keys below an integer -/

namespace Store

/-- The number that a key stands for, if it does, lies below an integer, as far as integers are told
apart. -/
def LiesBelow (key : Value) (n : Int) : Prop :=
  n ≤ 2 ^ 53 → ∀ x ∈ numberOf? key, x.isNaN = false → x.place < (Double.ofInt n).place

section LiesBelow

variable {key : Value} {n : Int}

theorem LiesBelow.mono {k : Int} (h : LiesBelow key k) (hkn : k ≤ n) : LiesBelow key n :=
  fun hn x hx hnan => (h (hkn.trans hn) x hx hnan).trans_le (Double.place_ofInt_mono hkn)

theorem liesBelow_of_eq_none (h : numberOf? key = none) : LiesBelow key n := by
  intro _ x hx
  rw [h] at hx
  cases hx

/-- The integer part of a number is below the integers that the number is below. -/
theorem liesBelow_of_toInt_lt (hpos : 0 < n) (h : ∀ x ∈ numberOf? key, x.toInt < n) :
    LiesBelow key n :=
  fun hn x hx hnan => Double.place_lt_of_toInt_lt hnan hpos hn (h x hx)

theorem liesBelow_ofInt (hn : 0 ≤ n) : LiesBelow (.ofInt n) (n + 1) := by
  intro hlimit x hx _
  obtain rfl : Double.ofInt n = x := Option.some.inj hx
  exact Double.place_ofInt_lt_succ (by omega) (by omega)

/-- A key that lies below an integer is not the same as this integer. -/
theorem LiesBelow.not_sameCell (h : LiesBelow key n) (hn : n ≤ 2 ^ 53) :
    ¬sameCell key (.ofInt n) := by
  intro hsame
  unfold sameCell compareCells? at hsame
  split at hsame
  · cases hsame
  · cases hx : numberOf? key with
    | none =>
        -- the text of the key would spell the integer
        have htext : key.plainText = (Value.ofInt n).plainText := by
          simpa [hx, Std.compare_eq_iff_eq] using hsame
        have hread : (readDouble? (Text.trim key.plainText)).isSome := by
          rw [htext]
          exact isSome_readDouble?_text trivial
        have hsome := isSome_numberOf?_of_text hread
        rw [hx] at hsome
        cases hsome
    | some x =>
        have horder : x.order? (Double.ofInt n) = some .eq := by
          rw [hx] at hsame
          exact beq_iff_eq.mp hsame
        unfold Double.order? at horder
        split_ifs at horder with hnan
        have hplace : x.place = (Double.ofInt n).place :=
          Std.compare_eq_iff_eq.mp (Option.some.inj horder)
        have hnumber : x.isNaN = false :=
          (Bool.or_eq_false_iff.mp (Bool.eq_false_iff.mpr hnan)).1
        exact (h hn x hx hnumber).ne hplace

end LiesBelow

/-! ### The last key of an entity -/

namespace Memory

/-- The last key that was given to a row of an entity. -/
def lastKey (m : Memory) (id : String) : Int := (m.table id).lastKey

section LastKey

variable (m : Memory) (e : Entity)

theorem lastKey_setTable_self (id : String) (t : Table) :
    (m.setTable id t).lastKey id = t.lastKey := by
  rw [lastKey, table_setTable_self]

theorem lastKey_setTable_of_ne {id other : String} (h : other ≠ id) (t : Table) :
    (m.setTable id t).lastKey other = m.lastKey other := by
  rw [lastKey, table_setTable_of_ne _ h, lastKey]

theorem lastKey_setRows (id : String) (rows : List Record) (other : String) :
    (m.setRows id rows).lastKey other = m.lastKey other := by
  by_cases h : other = id
  · subst h
    exact m.lastKey_setTable_self other _
  · exact m.lastKey_setTable_of_ne h _

theorem lastKey_record (operation : String) (p : Plan) (id : String) :
    (m.record operation p).lastKey id = m.lastKey id := by
  unfold record
  split <;> rfl

theorem lastKey_updateRow (id : Value) (data : Record) (touch : Bool) (other : String) :
    (m.updateRow e id data touch).2.lastKey other = m.lastKey other := by
  unfold updateRow
  dsimp only
  split
  · exact m.lastKey_setRows _ _ other
  · rfl

theorem lastKey_deleteRows (p : Plan) (other : String) :
    (m.deleteRows p).2.lastKey other = m.lastKey other :=
  m.lastKey_setRows _ _ other

theorem lastKey_assignKey_of_ne {other : String} (h : other ≠ e.id) (row : Record) :
    (m.assignKey e row).2.lastKey other = m.lastKey other := by
  unfold assignKey newKey noteKey
  dsimp only
  split
  · split
    · rfl
    · exact m.lastKey_setTable_of_ne h _
  · split
    · exact m.lastKey_setTable_of_ne h _
    · rfl

theorem lastKey_addRow_of_ne {other : String} (h : other ≠ e.id) (row : Record) :
    (m.addRow e row).2.lastKey other = m.lastKey other :=
  (lastKey_setRows _ _ _ other).trans (m.lastKey_assignKey_of_ne e h row)

/-- A row without a key gets the number after the last key as its key. -/
theorem addRow_of_isNull (htype : e.keyType ≠ .uuid) {row : Record}
    (h : (Record.cell row e.primaryKey).isNull) :
    Record.cell (m.addRow e row).1 e.primaryKey = .ofInt (following (m.lastKey e.id)) ∧
      (m.addRow e row).2.lastKey e.id = following (m.lastKey e.id) := by
  have hnew : m.newKey e = (.ofInt (following (m.lastKey e.id)),
      m.setTable e.id { m.table e.id with lastKey := following (m.lastKey e.id) }) := by
    unfold newKey
    split
    · next huuid => exact absurd huuid htype
    · rfl
  unfold addRow assignKey
  dsimp only
  rw [if_pos h, hnew]
  dsimp only
  exact ⟨Record.cell_put_self .., by rw [lastKey_setRows, lastKey_setTable_self]⟩

/-- A row with a key keeps it, and the last key is moved forward to it. -/
theorem addRow_of_given {row : Record} (h : (Record.cell row e.primaryKey).isNull = false) :
    (m.addRow e row).1 = row ∧
      m.lastKey e.id ≤ (m.addRow e row).2.lastKey e.id ∧
      ∀ x ∈ numberOf? (Record.cell row e.primaryKey),
        x.toInt ≤ (m.addRow e row).2.lastKey e.id := by
  unfold addRow assignKey
  dsimp only
  rw [if_neg (Bool.eq_false_iff.mp h), lastKey_setRows]
  refine ⟨rfl, ?_⟩
  unfold noteKey
  cases hx : numberOf? (Record.cell row e.primaryKey) with
  | none => exact ⟨le_rfl, nofun⟩
  | some x =>
      dsimp only
      rw [lastKey_setTable_self]
      refine ⟨Int.le_max_left .., ?_⟩
      rintro y ⟨⟩
      exact Int.le_max_right ..

/-- A row is added with a key below the next one. -/
theorem liesBelow_addRow (htype : e.keyType ≠ .uuid) (hlow : 0 ≤ m.lastKey e.id) {row : Record}
    (hroom : (Record.cell row e.primaryKey).isNull → m.lastKey e.id < Double.maxInt64) :
    m.lastKey e.id ≤ (m.addRow e row).2.lastKey e.id ∧
      LiesBelow (Record.cell (m.addRow e row).1 e.primaryKey)
        ((m.addRow e row).2.lastKey e.id + 1) := by
  cases hkey : (Record.cell row e.primaryKey).isNull with
  | true =>
      obtain ⟨hcell, hlast⟩ := m.addRow_of_isNull e htype hkey
      rw [hcell, hlast, following_eq hlow (hroom hkey)]
      exact ⟨by omega, liesBelow_ofInt (by omega)⟩
  | false =>
      obtain ⟨hrow, hlast, hnoted⟩ := m.addRow_of_given e hkey
      rw [hrow]
      refine ⟨hlast, liesBelow_of_toInt_lt (by omega) fun x hx => ?_⟩
      exact Int.lt_add_one_of_le (hnoted x hx)

end LastKey

end Memory

/-! ### Histories -/

/-- A row that was added to a table, as it was given, with the store that it was added to. -/
structure Addition where
  entity : Entity
  before : Memory
  given : Record

namespace Addition

/-- The key that the row has in the store. -/
def key (a : Addition) : Value :=
  Record.cell (a.before.addRow a.entity a.given).1 a.entity.primaryKey

/-- The row was given without a key, so the store has made one. -/
def isKeyless (a : Addition) : Bool := (Record.cell a.given a.entity.primaryKey).isNull

/-- If the store has made the key, it has not been at its greatest number before. -/
def HasRoom (a : Addition) : Prop := a.isKeyless → a.before.lastKey a.entity.id < Double.maxInt64

/-- The key of a row is an integer, and none of the keys of the rows that were there or had been
added to the same entity before, as far as integers are told apart. -/
def IsFresh (a : Addition) (earlier : List Addition) : Prop :=
  ∃ n : Int, a.key = .ofInt n ∧ (n ≤ 2 ^ 53 →
    (∀ row ∈ a.before.rows a.entity.id,
      ¬sameCell (Record.cell row a.entity.primaryKey) (.ofInt n)) ∧
    ∀ b ∈ earlier, b.entity = a.entity → ¬sameCell b.key (.ofInt n))

end Addition

/-- A change of a store: rows are put into the table of an entity, or an operation is run. -/
inductive Change where
  | seed (id : String) (rows : List Value)
  | operation (o : Operation)

/-- The store after a change. -/
def Change.after (store : Memory) : Change → Memory
  | seed id rows => (Memory.seed id rows store).2
  | operation o => o.after store

/-- An operation writes, if it does, to an entity of a model. -/
def Change.IsWithin (m : Model) : Change → Prop
  | seed _ _ => True
  | operation o => o.IsWithin m fun _ => True

/-- A store with the rows that were added to its tables, oldest first. -/
structure History where
  store : Memory
  added : List Addition := []

namespace History

/-- Add a row to a table. -/
def add (h : History) (e : Entity) (row : Record) : History where
  store := (h.store.addRow e row).2
  added := h.added ++ [⟨e, h.store, row⟩]

/-- Add rows to a table, up to the first value that is no row. -/
def addRows (h : History) (e : Entity) : List Value → History
  | .object row :: rest => (h.add e row).addRows e rest
  | _ => h

/-- The history after a change. -/
def change (h : History) : Change → History
  | .seed id rows =>
    match h.store.model.entity? id with
    | some e => h.addRows e rows
    | none => h
  | .operation (.insert e data) => h.add e (Memory.newRow e h.store.clock data)
  | .operation o => { h with store := o.after h.store }

/-- The history after changes, each at its reading of the clock. -/
def run (h : History) (changes : List (String × Change)) : History :=
  changes.foldl (fun h (clock, c) => { h with store := { h.store with clock } }.change c) h

/-! ### What is noted -/

theorem store_addRows (e : Entity) (rows : List Value) (h : History) :
    (h.addRows e rows).store = (h.store.seedRows e rows).2 := by
  induction rows generalizing h with
  | nil => rfl
  | cons v rest ih =>
      cases v with
      | object row => exact ih (h.add e row)
      | null | bool | number | string | array => rfl

theorem store_change (h : History) (c : Change) : (h.change c).store = c.after h.store := by
  cases c with
  | seed id rows =>
      simp only [change, Change.after, Memory.seed]
      cases h.store.model.entity? id with
      | some e => exact store_addRows e rows h
      | none => rfl
  | operation o => cases o <;> rfl

/-- The store of a history is the store after the changes. -/
theorem store_run (changes : List (String × Change)) (h : History) :
    (h.run changes).store =
      changes.foldl (fun store (clock, c) => c.after { store with clock }) h.store := by
  induction changes generalizing h with
  | nil => rfl
  | cons timed rest ih =>
      refine (ih _).trans ?_
      rw [store_change]
      rfl

/-! ### What each change keeps -/

/-- The store has not run out of keys for the rows of an entity. -/
def HasRoom (e : Entity) (added : List Addition) : Prop :=
  ∀ a ∈ added, a.entity = e → a.HasRoom

theorem HasRoom.left {e : Entity} {added later : List Addition} (h : HasRoom e (added ++ later)) :
    HasRoom e added :=
  fun a ha => h a (List.mem_append_left _ ha)

/-- As long as the store has not run out of keys, the last key of an entity is ahead of the keys
that were added to it, and the keys that were made for rows are fresh.  The keys of its rows are
among those that were added, if they stand for numbers. -/
structure KeepsAhead (m : Model) (e : Entity) (h : History) : Prop where
  model : h.store.model = m
  low : HasRoom e h.added → 0 ≤ h.store.lastKey e.id
  stored : ∀ row ∈ h.store.rows e.id, numberOf? (Record.cell row e.primaryKey) = none ∨
    ∃ a ∈ h.added, a.entity = e ∧ a.key = Record.cell row e.primaryKey
  added : HasRoom e h.added →
    ∀ a ∈ h.added, a.entity = e → LiesBelow a.key (h.store.lastKey e.id + 1)
  fresh : ∀ {earlier a later}, h.added = earlier ++ a :: later → a.entity = e → a.isKeyless →
    HasRoom e (earlier ++ [a]) → a.IsFresh earlier

namespace KeepsAhead

variable {m : Model} {e : Entity} {h : History}

/-- A store without rows has no keys. -/
theorem of_tables_eq_nil {store : Memory} (hmodel : store.model = m) (h : store.tables = []) :
    KeepsAhead m e ⟨store, []⟩ := by
  have htable : store.table e.id = {} := by
    rw [Memory.table, h]
    rfl
  refine ⟨hmodel, fun _ => ?_, ?_, ?_, ?_⟩
  · rw [Memory.lastKey, htable]
  · intro row hrow
    rw [Memory.rows, htable] at hrow
    cases hrow
  · intro _ a ha
    cases ha
  · intro earlier a later hadded
    exact absurd hadded.symm (List.append_ne_nil_of_right_ne_nil _ (List.cons_ne_nil _ _))

/-- What changes no last key, and gives rows only keys that they had or that stand for no number,
keeps the last key ahead. -/
theorem of_lastKey_eq (hkeeps : KeepsAhead m e h) {store : Memory} (hmodel : store.model = m)
    (hlast : store.lastKey e.id = h.store.lastKey e.id)
    (hrows : ∀ row ∈ store.rows e.id, numberOf? (Record.cell row e.primaryKey) = none ∨
      ∃ old ∈ h.store.rows e.id, Record.cell row e.primaryKey = Record.cell old e.primaryKey) :
    KeepsAhead m e { h with store } where
  model := hmodel
  low hroom := hlast ▸ hkeeps.low hroom
  stored row hrow := by
    rcases hrows row hrow with hnone | ⟨old, hold, hcell⟩
    · exact .inl hnone
    · rw [hcell]
      exact hkeeps.stored old hold
  added hroom a ha hentity := hlast ▸ hkeeps.added hroom a ha hentity
  fresh := hkeeps.fresh

theorem liesBelow_of_mem_rows (hkeeps : KeepsAhead m e h) (hroom : HasRoom e h.added)
    {row : Record} (hrow : row ∈ h.store.rows e.id) :
    LiesBelow (Record.cell row e.primaryKey) (h.store.lastKey e.id + 1) := by
  rcases hkeeps.stored row hrow with hnone | ⟨a, ha, hentity, hcell⟩
  · exact liesBelow_of_eq_none hnone
  · rw [← hcell]
    exact hkeeps.added hroom a ha hentity

/-- The key that is made for the next row is fresh. -/
theorem isFresh_next (hkeeps : KeepsAhead m e h) (htype : e.keyType ≠ .uuid) {row : Record}
    (hkey : (Record.cell row e.primaryKey).isNull)
    (hroom : HasRoom e (h.added ++ [⟨e, h.store, row⟩])) :
    Addition.IsFresh ⟨e, h.store, row⟩ h.added := by
  have hlast : h.store.lastKey e.id < Double.maxInt64 :=
    hroom ⟨e, h.store, row⟩ (List.mem_append_right _ List.mem_cons_self) rfl hkey
  obtain ⟨hcell, -⟩ := h.store.addRow_of_isNull e htype hkey
  rw [Memory.following_eq (hkeeps.low hroom.left) hlast] at hcell
  refine ⟨_, hcell, fun hlimit => ⟨?_, ?_⟩⟩
  · intro old hold
    exact (hkeeps.liesBelow_of_mem_rows hroom.left hold).not_sameCell hlimit
  · intro b hb hentity
    exact (hkeeps.added hroom.left b hb hentity).not_sameCell hlimit

/-- A row that is added keeps the last key ahead. -/
theorem add (hkeeps : KeepsAhead m e h) (hm : m.IsResolved) (he : e ∈ m.entities)
    (htype : e.keyType ≠ .uuid) {d : Entity} (hd : d ∈ m.entities) (row : Record) :
    KeepsAhead m e (h.add d row) := by
  have hmodel : (h.add d row).store.model = m := (h.store.addRow_model d row).trans hkeeps.model
  have hfresh : ∀ {earlier a later}, h.added ++ [⟨d, h.store, row⟩] = earlier ++ a :: later →
      a.entity = e → a.isKeyless → HasRoom e (earlier ++ [a]) → a.IsFresh earlier := by
    intro earlier a later hsplit hentity hkey hroom
    rcases List.eq_nil_or_concat later with rfl | ⟨later, last, rfl⟩
    · obtain ⟨rfl, hlast⟩ := List.append_inj' hsplit rfl
      obtain rfl := (List.cons.inj hlast).1
      subst hentity
      exact hkeeps.isFresh_next htype hkey hroom
    · rw [List.concat_eq_append, ← List.cons_append, ← List.append_assoc] at hsplit
      exact hkeeps.fresh (List.append_inj' hsplit rfl).1 hentity hkey hroom
  have hkept : ∀ stored ∈ h.store.rows e.id,
      numberOf? (Record.cell stored e.primaryKey) = none ∨
        ∃ a ∈ (h.add d row).added, a.entity = e ∧ a.key = Record.cell stored e.primaryKey := by
    intro stored hstored
    refine (hkeeps.stored stored hstored).imp_right ?_
    rintro ⟨a, ha, hadded⟩
    exact ⟨a, List.mem_append_left _ ha, hadded⟩
  by_cases hid : e.id = d.id
  · obtain rfl := hm.eq_of_id_eq he hd hid
    have hbelow (hroom : HasRoom e (h.add e row).added) :=
      h.store.liesBelow_addRow e htype (hkeeps.low hroom.left)
        (hroom ⟨e, h.store, row⟩ (List.mem_append_right _ List.mem_cons_self) rfl)
    refine ⟨hmodel, fun hroom => (hkeeps.low hroom.left).trans (hbelow hroom).1, ?_, ?_, hfresh⟩
    · intro stored hstored
      change stored ∈ (h.store.addRow e row).2.rows e.id at hstored
      rw [Memory.addRow_rows_self] at hstored
      rcases List.mem_append.mp hstored with hold | hnew
      · exact hkept stored hold
      · obtain rfl := List.mem_singleton.mp hnew
        exact .inr ⟨⟨e, h.store, row⟩, List.mem_append_right _ List.mem_cons_self, rfl, rfl⟩
    · intro hroom a ha hentity
      rcases List.mem_append.mp ha with hold | hnew
      · exact (hkeeps.added hroom.left a hold hentity).mono
          (Int.add_le_add_right (hbelow hroom).1 1)
      · obtain rfl := List.mem_singleton.mp hnew
        exact (hbelow hroom).2
  · have hlast : (h.add d row).store.lastKey e.id = h.store.lastKey e.id :=
      h.store.lastKey_addRow_of_ne d hid row
    refine ⟨hmodel, fun hroom => hlast ▸ hkeeps.low hroom.left, ?_, ?_, hfresh⟩
    · intro stored hstored
      change stored ∈ (h.store.addRow d row).2.rows e.id at hstored
      rw [Memory.addRow_rows_of_ne _ _ _ hid] at hstored
      exact hkept stored hstored
    · intro hroom a ha hentity
      rw [hlast]
      rcases List.mem_append.mp ha with hold | hnew
      · exact hkeeps.added hroom.left a hold hentity
      · obtain rfl := List.mem_singleton.mp hnew
        exact absurd (congrArg Entity.id hentity).symm hid

theorem addRows (hkeeps : KeepsAhead m e h) (hm : m.IsResolved) (he : e ∈ m.entities)
    (htype : e.keyType ≠ .uuid) {d : Entity} (hd : d ∈ m.entities) (rows : List Value) :
    KeepsAhead m e (h.addRows d rows) := by
  induction rows generalizing h with
  | nil => exact hkeeps
  | cons v rest ih =>
      cases v with
      | object row => exact ih (hkeeps.add hm he htype hd row)
      | null | bool | number | string | array => exact hkeeps

/-- Rows that are changed keep their keys, or have the reading of the clock as their key. -/
theorem update (hkeeps : KeepsAhead m e h) (hm : m.IsResolved) (he : e ∈ m.entities) {d : Entity}
    (hd : d ∈ m.entities) (hclock : numberOf? (.string h.store.clock) = none) (id : Value)
    (data : Record) (touch : Bool) :
    KeepsAhead m e { h with store := (h.store.updateRow d id data touch).2 } := by
  refine hkeeps.of_lastKey_eq ((h.store.updateRow_model d id data touch).trans hkeeps.model)
    (h.store.lastKey_updateRow d id data touch e.id) ?_
  intro row hrow
  by_cases hid : e.id = d.id
  · obtain rfl := hm.eq_of_id_eq he hd hid
    rw [Memory.updateRow_rows_self] at hrow
    rcases mem_modify hrow with hold | ⟨old, hold, rfl⟩
    · exact .inr ⟨row, hold, rfl⟩
    · rcases Record.cell_putAll old (Memory.assigned e h.store.clock data touch) e.primaryKey
        with hcell | hassigned
      · exact .inr ⟨old, hold, hcell⟩
      · refine .inl ?_
        rcases List.mem_append.mp hassigned with hwritten | hstamp
        · -- the data never assign the key
          have hne := (List.mem_filter.mp hwritten).2
          simp at hne
        · split at hstamp
          · obtain ⟨column, -, hcolumn⟩ := List.mem_map.mp hstamp
            rw [← (Prod.mk.inj hcolumn).2]
            exact hclock
          · cases hstamp
  · rw [Memory.updateRow_rows_of_ne _ _ _ _ _ hid] at hrow
    exact .inr ⟨row, hrow, rfl⟩

/-- Rows that are recorded, removed or read keep their keys. -/
theorem of_rows_subset (hkeeps : KeepsAhead m e h) {store : Memory}
    (hmodel : store.model = h.store.model) (hlast : store.lastKey e.id = h.store.lastKey e.id)
    (hrows : store.rows e.id ⊆ h.store.rows e.id) : KeepsAhead m e { h with store } :=
  hkeeps.of_lastKey_eq (hmodel.trans hkeeps.model) hlast fun row hrow =>
    .inr ⟨row, hrows hrow, rfl⟩

theorem record (hkeeps : KeepsAhead m e h) (operation : String) (p : Plan) :
    KeepsAhead m e { h with store := h.store.record operation p } :=
  hkeeps.of_rows_subset (h.store.record_model operation p) (h.store.lastKey_record operation p e.id)
    (h.store.record_rows operation p e.id ▸ List.Subset.refl _)

/-- Each change keeps the last key ahead. -/
theorem change (hkeeps : KeepsAhead m e h) (hm : m.IsResolved) (he : e ∈ m.entities)
    (htype : e.keyType ≠ .uuid) {c : Change} (hc : c.IsWithin m)
    (hclock : numberOf? (.string h.store.clock) = none) : KeepsAhead m e (h.change c) := by
  cases c with
  | seed id rows =>
      simp only [History.change]
      split
      · next d hd =>
          rw [hkeeps.model] at hd
          exact hkeeps.addRows hm he htype (List.mem_of_find?_eq_some hd) rows
      · exact hkeeps
  | operation o =>
      cases o with
      | insert d data => exact hkeeps.add hm he htype hc.1 _
      | updateByKey d id data touch => exact hkeeps.update hm he hc.1 hclock id data touch
      | delete p =>
          have hrecord := hkeeps.record "delete" p
          exact hrecord.of_rows_subset (Memory.deleteRows_model _ p)
            (Memory.lastKey_deleteRows _ p e.id) (Memory.deleteRows_rows_sublist _ p e.id).subset
      | get p columns => exact hkeeps.record "get" p
      | paginate p columns perPage page => exact hkeeps.record "paginate" p
      | count p => exact hkeeps.record "count" p
      | ping => exact hkeeps

/-- Changes one after the other keep the last key ahead. -/
theorem run (hkeeps : KeepsAhead m e h) (hm : m.IsResolved) (he : e ∈ m.entities)
    (htype : e.keyType ≠ .uuid) {changes : List (String × Change)}
    (hchanges : ∀ timed ∈ changes, timed.2.IsWithin m ∧ numberOf? (.string timed.1) = none) :
    KeepsAhead m e (h.run changes) := by
  induction changes generalizing h with
  | nil => exact hkeeps
  | cons timed rest ih =>
      obtain ⟨⟨hwithin, hclock⟩, hrest⟩ := List.forall_mem_cons.mp hchanges
      have htimed : KeepsAhead m e { h with store := { h.store with clock := timed.1 } } :=
        hkeeps.of_rows_subset rfl rfl (List.Subset.refl _)
      exact ih (htimed.change hm he htype hwithin hclock) hrest

end KeepsAhead

end History

end Store

open Store.History in
/-- As long as the store has not run out of keys, the key that it makes for a row is an integer, and
up to `2 ^ 53` it is not the key of a row that is there, nor of one that has been added before,
whatever has been put into the store, added, changed and removed. -/
theorem generated_keys_are_fresh {config : Config.Configuration} {m : Model}
    (hm : Model.resolve config = .ok m) {e : Entity} (he : e ∈ m.entities)
    (htype : e.keyType ≠ .uuid) {empty : Memory} (hmodel : empty.model = m)
    (hempty : empty.tables = []) {changes : List (String × Change)}
    (hchanges : ∀ timed ∈ changes, timed.2.IsWithin m ∧ numberOf? (.string timed.1) = none)
    {earlier later : List Addition} {a : Addition}
    (hadded : (History.run ⟨empty, []⟩ changes).added = earlier ++ a :: later)
    (hentity : a.entity = e) (hkey : a.isKeyless) (hroom : HasRoom e (earlier ++ [a])) :
    a.IsFresh earlier :=
  ((KeepsAhead.of_tables_eq_nil hmodel hempty).run (isResolved_of_resolve hm) he htype
    hchanges).fresh hadded hentity hkey hroom

/-! ### Orders -/

namespace Orders

/-- Orders, which are numbered. -/
def orders : Config.EntityDeclaration where
  id := "orders"
  schema := "public"
  table := "orders"
  pathSegment := "orders"
  primaryKey := "id"
  createdAt := "created_at"
  updatedAt := "updated_at"
  columns := [⟨"id", .simple "bigserial", false, none⟩, ⟨"article", .simple "text", false, none⟩]
  filterableFields := []
  activeFlag := none
  defaultSort := none
  aggregates := []
  operations := ["create", "read", "update", "delete"]
  sensitiveColumns := []
  validation := []
  pageSize := 25

/-- The entity of orders. -/
def order : Entity := Model.entityOf [] orders

/-- A store without orders. -/
def empty : Memory where
  model := ⟨[order]⟩
  clock := ""
  identifiers := fun n => ⟨(Nat.toDigits 16 n).leftpad 32 '0'⟩

/-- Orders with a number and a text as keys are put into the store and one without a key, all of
them are removed, and another one is added. -/
def changes : List Change :=
  [.seed "orders" [.object [("id", .number (.real (.ofRatio false 5 2)))],
      .object [("id", .string "7")], .object [("article", .string "Lamp")]],
    .operation (.delete ⟨order, []⟩),
    .operation (.insert order [("article", .string "Door")])]

/-- The history of the store after the changes. -/
def history : History :=
  History.run ⟨empty, []⟩ (changes.map fun c => ("2000-01-01T00:00:00+00:00", c))

theorem added_ne_nil : history.added ≠ [] :=
  List.ne_nil_of_length_eq_add_one (show history.added.length = 3 + 1 by decide +kernel)

end Orders

open Orders in
/-- An order that is added after all others have been removed gets none of their keys. -/
theorem generated_keys_are_fresh_orders :
    ∃ (earlier : List Addition) (a : Addition), history.added = earlier ++ [a] ∧
      earlier.map (fun b => b.key.plainText) = ["2.5", "7", "8"] ∧ a.key.plainText = "9" ∧
      a.IsFresh earlier := by
  have hwithin : ∀ c ∈ changes, c.IsWithin ⟨[order]⟩ := by
    simp only [changes, List.forall_mem_cons]
    exact ⟨trivial, trivial, ⟨List.mem_singleton.mpr rfl, trivial⟩, nofun⟩
  have hclock : numberOf? (.string "2000-01-01T00:00:00+00:00") = none := by decide +kernel
  have hsplit := (List.dropLast_concat_getLast added_ne_nil).symm
  have hroom : ∀ a ∈ history.added,
      a.isKeyless → a.before.lastKey a.entity.id < Double.maxInt64 := by
    decide +kernel
  refine ⟨_, _, hsplit, by decide +kernel, by decide +kernel, ?_⟩
  refine @generated_keys_are_fresh ⟨[orders], []⟩ ⟨[order]⟩ rfl order (List.mem_singleton.mpr rfl)
    (by decide) empty rfl rfl _ ?_ _ [] _ hsplit rfl (by decide +kernel) ?_
  · rw [List.forall_mem_map]
    exact fun c hc => ⟨hwithin c hc, hclock⟩
  · intro b hb _
    exact hroom b (hsplit ▸ hb)

end EntityService
