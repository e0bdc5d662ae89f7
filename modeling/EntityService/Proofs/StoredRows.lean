import EntityService.Proofs.Operations
import EntityService.Proofs.Resolution
import EntityService.Store.Related

/-!
# Rows of stores

What all rows have in common that a service ever stores.

## Main definitions

* `Operation.Keeps` — an operation keeps what all rows have
* `RowInvariant` — what new rows have, and changed rows keep
* `Memory.Holds` — what all rows of the entities of a model have
* `HasColumns` — the keys of a row are the columns of its entity
* `Memory.operateAt` — the store after operations, each at its reading of the clock
* `Service.serve` — the store of a service after requests, each at its reading of the clock

## Main results

* `holds_operate`, `holds_operateAt`, `holds_serve` — what new and changed rows have, all rows have
* `finiteKeys_serve` — the keys of all rows are finite
* `hasColumns_operateAt` — the keys of all rows are the columns of their entities

## Design notes

What is stated about stores is shown operation by operation: `Operation.Keeps` asks only for what an
operation does to one row, and `RowInvariant` for what operations with data of a kind do.
-/

namespace EntityService

open EntityService.Http EntityService.Json EntityService.Model EntityService.Store

/-- What new rows of the entities of a model have, and changed rows keep, if the data are of a
kind. -/
structure RowInvariant (m : Model) (kind : Record → Prop) (R : Entity → Record → Prop) : Prop where
  inserted : ∀ e ∈ m.entities, ∀ (store : Memory) (data : Record), kind data →
    R e (store.insertRow e data).1
  updated : ∀ e ∈ m.entities, ∀ (clock : String) (data : Record) (touch : Bool) (row : Record),
    kind data → R e row → R e (Record.putAll row (Memory.assigned e clock data touch))

theorem RowInvariant.mono {m : Model} {kind narrower : Record → Prop}
    {R : Entity → Record → Prop} (h : RowInvariant m kind R)
    (hkind : ∀ data, narrower data → kind data) : RowInvariant m narrower R where
  inserted e he store data hdata := h.inserted e he store data (hkind data hdata)
  updated e he clock data touch row hdata :=
    h.updated e he clock data touch row (hkind data hdata)

/-- An operation writes, if it does, to an entity of a model: a new row has something, and a changed
row has it if it had it before. -/
def Store.Operation.Keeps (m : Model) (R : Entity → Record → Prop) : Operation → Prop
  | insert e data => e ∈ m.entities ∧ ∀ store : Memory, R e (store.insertRow e data).1
  | updateByKey e _ data touch => e ∈ m.entities ∧ ∀ (clock : String) (row : Record),
      R e row → R e (Record.putAll row (Memory.assigned e clock data touch))
  | _ => True

theorem RowInvariant.keeps {m : Model} {kind : Record → Prop} {R : Entity → Record → Prop}
    (h : RowInvariant m kind R) {operation : Operation} (hoperation : operation.IsWithin m kind) :
    operation.Keeps m R := by
  cases operation with
  | insert e data =>
      exact ⟨hoperation.1, fun store => h.inserted e hoperation.1 store data hoperation.2⟩
  | updateByKey e id data touch =>
      exact ⟨hoperation.1, fun clock row =>
        h.updated e hoperation.1 clock data touch row hoperation.2⟩
  | _ => exact trivial

/-- All rows of the entities of a model have something. -/
def Store.Memory.Holds (store : Memory) (m : Model) (R : Entity → Record → Prop) : Prop :=
  ∀ e ∈ m.entities, ∀ row ∈ store.rows e.id, R e row

theorem mem_modify {α : Type} {change : α → α} {xs : List α} {i : Nat} {x : α}
    (h : x ∈ xs.modify i change) : x ∈ xs ∨ ∃ y ∈ xs, change y = x := by
  induction xs generalizing i with
  | nil => cases i <;> cases h
  | cons y ys ih =>
      cases i with
      | zero =>
          rw [List.modify_zero_cons] at h
          rcases List.mem_cons.mp h with rfl | hmem
          · exact .inr ⟨y, List.mem_cons_self, rfl⟩
          · exact .inl (List.mem_cons_of_mem _ hmem)
      | succ i =>
          rw [List.modify_succ_cons] at h
          rcases List.mem_cons.mp h with rfl | hmem
          · exact .inl List.mem_cons_self
          · rcases ih hmem with hys | ⟨z, hz, hzx⟩
            · exact .inl (List.mem_cons_of_mem _ hys)
            · exact .inr ⟨z, List.mem_cons_of_mem _ hz, hzx⟩

section Holds

variable {m : Model} {kind : Record → Prop} {R : Entity → Record → Prop} {store : Memory}

theorem holds_of_tables_eq_nil (h : store.tables = []) : store.Holds m R := by
  intro e _ row hrow
  rw [Memory.rows, Memory.table, h] at hrow
  cases hrow

theorem holds_of_rows_subset {other : Memory} (hsubset : ∀ id, other.rows id ⊆ store.rows id)
    (h : store.Holds m R) : other.Holds m R :=
  fun e he row hrow => h e he row (hsubset e.id hrow)

/-- A query that is recorded changes no row. -/
theorem holds_record (operation : String) (p : Plan) (h : store.Holds m R) :
    (store.record operation p).Holds m R := by
  intro e he row hrow
  rw [Memory.record_rows] at hrow
  exact h e he row hrow

/-- What a row has that is added, all rows have after it. -/
theorem holds_addRow (hm : m.IsResolved) {d : Entity} (hd : d ∈ m.entities) {row : Record}
    (hrow : R d (store.addRow d row).1) (h : store.Holds m R) :
    (store.addRow d row).2.Holds m R := by
  intro e he stored hstored
  by_cases hid : e.id = d.id
  · obtain rfl := hm.eq_of_id_eq he hd hid
    rw [Memory.addRow_rows_self] at hstored
    rcases List.mem_append.mp hstored with hold | hnew
    · exact h e he stored hold
    · obtain rfl := List.mem_singleton.mp hnew
      exact hrow
  · rw [Memory.addRow_rows_of_ne _ _ _ hid] at hstored
    exact h e he stored hstored

/-- What an operation does to one row, all rows keep. -/
theorem holds_after (hm : m.IsResolved) {operation : Operation} (hkeeps : operation.Keeps m R)
    (h : store.Holds m R) : (operation.after store).Holds m R := by
  cases operation with
  | insert d data => exact holds_addRow hm hkeeps.1 (hkeeps.2 store) h
  | updateByKey d id data touch =>
      obtain ⟨hd, hkeeps⟩ := hkeeps
      intro e he row hrow
      change row ∈ (store.updateRow d id data touch).2.rows e.id at hrow
      by_cases hid : e.id = d.id
      · obtain rfl := hm.eq_of_id_eq he hd hid
        rw [Memory.updateRow_rows_self] at hrow
        rcases mem_modify hrow with hold | ⟨old, hold, rfl⟩
        · exact h e he row hold
        · exact hkeeps _ old (h e he old hold)
      · rw [Memory.updateRow_rows_of_ne _ _ _ _ _ hid] at hrow
        exact h e he row hrow
  | delete p =>
      exact holds_of_rows_subset (fun id => (Memory.deleteRows_rows_sublist _ p id).subset)
        (holds_record "delete" p h)
  | get p columns => exact holds_record "get" p h
  | paginate p columns perPage page => exact holds_record "paginate" p h
  | count p => exact holds_record "count" p h
  | ping => exact h

theorem holds_operate (hm : m.IsResolved) {operations : List Operation}
    (hkeeps : ∀ operation ∈ operations, operation.Keeps m R) (h : store.Holds m R) :
    (operate operations store).Holds m R := by
  induction operations generalizing store with
  | nil => exact h
  | cons operation rest ih =>
      obtain ⟨hfirst, hrest⟩ := List.forall_mem_cons.mp hkeeps
      exact ih hrest (holds_after hm hfirst h)

/-- The store after operations, each at its reading of the clock. -/
def Store.Memory.operateAt (operations : List (String × Operation)) (store : Memory) : Memory :=
  operations.foldl (fun store (clock, operation) => operation.after { store with clock }) store

theorem holds_operateAt (hm : m.IsResolved) (hR : RowInvariant m kind R)
    {operations : List (String × Operation)}
    (hoperations : ∀ timed ∈ operations, timed.2.IsWithin m kind) (h : store.Holds m R) :
    (store.operateAt operations).Holds m R := by
  induction operations generalizing store with
  | nil => exact h
  | cons timed rest ih =>
      obtain ⟨hfirst, hrest⟩ := List.forall_mem_cons.mp hoperations
      have hclock : Memory.Holds { store with clock := timed.1 } m R := h
      exact ih hrest (holds_after hm (hR.keeps hfirst) hclock)

theorem after_model (operation : Operation) (store : Memory) :
    (operation.after store).model = store.model := by
  cases operation with
  | insert e data => exact store.insertRow_model e data
  | updateByKey e id data touch => exact store.updateRow_model e id data touch
  | delete p => exact ((store.record "delete" p).deleteRows_model p).trans (store.record_model _ p)
  | get p columns => exact store.record_model _ p
  | paginate p columns perPage page => exact store.record_model _ p
  | count p => exact store.record_model _ p
  | ping => rfl

theorem operateAt_model (operations : List (String × Operation)) (store : Memory) :
    (store.operateAt operations).model = store.model := by
  induction operations generalizing store with
  | nil => rfl
  | cons timed rest ih => exact (ih _).trans (after_model timed.2 _)

/-- The store after requests, each at its reading of the clock. -/
def Service.serve (service : Service) (requests : List (String × Request)) (store : Memory) :
    Memory :=
  requests.foldl (fun store (clock, r) => (service.answer r { store with clock }).2) store

/-- What new and changed rows have, all rows have after any requests. -/
theorem holds_serve {service : Service} (hm : service.model.IsResolved)
    (hR : RowInvariant service.model IsBody R) (requests : List (String × Request))
    (h : store.Holds service.model R) : (service.serve requests store).Holds service.model R := by
  induction requests generalizing store with
  | nil => exact h
  | cons request rest ih =>
      obtain ⟨clock, r⟩ := request
      obtain ⟨operations, hwithin, hafter⟩ := service.reaches_answer r { store with clock }
      have hstep : (service.answer r { store with clock }).2.Holds service.model R := by
        rw [hafter]
        exact holds_operate hm
          (fun operation hoperation => hR.keeps (hwithin operation hoperation)) h
      exact ih hstep

end Holds

/-! ### Keys of rows -/

/-- The values of data are finite. -/
def HasFiniteValues (data : Record) : Prop := ∀ member ∈ data, member.2.IsFinite

theorem Http.IsBody.hasFiniteValues {data : Record} (h : IsBody data) : HasFiniteValues data :=
  fun _ hmember => (h.member hmember).isFinite

/-- The key of a row is finite. -/
def FiniteKey (e : Entity) (row : Record) : Prop := (Record.cell row e.primaryKey).IsFinite

theorem isFinite_of_mem_stampsAt {e : Entity} {clock : String} {columns : List String}
    {data : Record} {member : String × Value}
    (h : member ∈ Memory.stampsAt e clock columns data) : member.2.IsFinite := by
  obtain ⟨column, -, rfl⟩ := List.mem_map.mp h
  exact trivial

theorem isFinite_of_mem_keep {data : Record} (hdata : HasFiniteValues data)
    {test : String → Bool} {member : String × Value} (h : member ∈ Record.keep data test) :
    member.2.IsFinite :=
  hdata member (List.mem_filter.mp h).1

theorem finiteKey_newRow (e : Entity) (clock : String) {data : Record}
    (hdata : HasFiniteValues data) :
    FiniteKey e (Memory.newRow e clock data) := by
  have hdefault : Record.cell (Memory.defaults e) e.primaryKey = .null := by
    refine (Record.cell_putAll [] _ e.primaryKey).resolve_right ?_
    intro hmem
    -- the defaults leave the key out
    obtain ⟨c, hc, heq⟩ := List.mem_map.mp hmem
    have hname : c.name = e.primaryKey := congrArg Prod.fst heq
    have hne := (List.mem_filter.mp hc).2
    simp [hname] at hne
  unfold FiniteKey Memory.newRow
  rcases Record.cell_putAll _ _ e.primaryKey with hstamps | hstamp
  · rw [hstamps]
    rcases Record.cell_putAll _ _ e.primaryKey with hdata' | hwritten
    · rw [hdata', hdefault]
      exact trivial
    · exact isFinite_of_mem_keep hdata hwritten
  · exact isFinite_of_mem_stampsAt hstamp

/-- A key that is made for a row is finite. -/
theorem finiteKey_assignKey {e : Entity} {row : Record} (h : FiniteKey e row) (store : Memory) :
    FiniteKey e (store.assignKey e row).1 := by
  unfold Memory.assignKey
  dsimp only
  split
  · unfold FiniteKey
    rw [Record.cell_put_self]
    exact store.newKey_isFinite e
  · exact h

theorem rowInvariant_finiteKey (m : Model) : RowInvariant m HasFiniteValues FiniteKey where
  inserted e _ store data hdata :=
    finiteKey_assignKey (finiteKey_newRow e store.clock hdata) store
  updated e _ clock data touch row hdata hrow := by
    unfold FiniteKey
    rcases Record.cell_putAll row (Memory.assigned e clock data touch) e.primaryKey with hold | hnew
    · rw [hold]
      exact hrow
    · rcases List.mem_append.mp hnew with hwritten | hstamp
      · exact isFinite_of_mem_keep hdata (List.mem_filter.mp hwritten).1
      · split at hstamp
        · exact isFinite_of_mem_stampsAt hstamp
        · cases hstamp

/-- The keys of all rows are finite that a service has stored. -/
theorem finiteKeys_serve {service : Service} (hm : service.model.IsResolved)
    (requests : List (String × Request)) {store : Memory} (h : store.tables = []) :
    (service.serve requests store).Holds service.model FiniteKey :=
  holds_serve hm ((rowInvariant_finiteKey _).mono fun _ => IsBody.hasFiniteValues) requests
    (holds_of_tables_eq_nil h)

/-! ### Columns of rows -/

/-- The keys of a row are the columns of its entity. -/
def HasColumns (e : Entity) (row : Record) : Prop :=
  ∀ key, key ∈ Record.keys row ↔ e.declares key

theorem declares_iff {e : Entity} {key : String} :
    e.declares key ↔ key ∈ e.columns.map (·.name) := by
  rw [Entity.declares, Entity.column?, List.find?_isSome, List.mem_map]
  simp only [beq_iff_eq]

theorem declares_of_mem_keys_writable {e : Entity} (hcolumns : e.columns ≠ []) {data : Record}
    {key : String} (h : key ∈ Record.keys (e.writable data)) : e.declares key := by
  have htakes := (Record.mem_keys_keep.mp h).1
  rw [Entity.takesKey, List.isEmpty_eq_false_iff.mpr hcolumns, Bool.false_or] at htakes
  exact htakes

theorem declares_of_mem_keys_stampsAt {e : Entity} {clock : String} {columns : List String}
    {data : Record} {key : String} (h : key ∈ Record.keys (Memory.stampsAt e clock columns data)) :
    e.declares key := by
  obtain ⟨member, hmember, rfl⟩ := List.mem_map.mp h
  obtain ⟨column, hcolumn, rfl⟩ := List.mem_map.mp hmember
  exact (Bool.and_eq_true_iff.mp (List.mem_filter.mp hcolumn).2).1

/-- A new row has all columns but for the primary key, which it may have. -/
theorem mem_keys_newRow {e : Entity} (hcolumns : e.columns ≠ []) (clock : String) (data : Record)
    (key : String) :
    (key ∈ Record.keys (Memory.newRow e clock data) → e.declares key) ∧
      (e.declares key → key ≠ e.primaryKey → key ∈ Record.keys (Memory.newRow e clock data)) := by
  have hdefaults : key ∈ Record.keys (Memory.defaults e) ↔
      e.declares key ∧ key ≠ e.primaryKey := by
    rw [Memory.defaults, Record.ofList, Record.mem_keys_putAll, declares_iff, Record.keys,
      Record.keys, List.map_map]
    constructor
    · rintro (hnone | hmem)
      · cases hnone
      · obtain ⟨c, hc, rfl⟩ := List.mem_map.mp hmem
        obtain ⟨hc, hne⟩ := List.mem_filter.mp hc
        exact ⟨List.mem_map_of_mem hc, bne_iff_ne.mp hne⟩
    · rintro ⟨hmem, hne⟩
      obtain ⟨c, hc, rfl⟩ := List.mem_map.mp hmem
      exact .inr (List.mem_map.mpr ⟨c, List.mem_filter.mpr ⟨hc, bne_iff_ne.mpr hne⟩, rfl⟩)
  unfold Memory.newRow
  rw [Record.mem_keys_putAll, Record.mem_keys_putAll, hdefaults]
  constructor
  · rintro ((⟨hdeclares, -⟩ | hdata) | hstamp)
    · exact hdeclares
    · exact declares_of_mem_keys_writable hcolumns hdata
    · exact declares_of_mem_keys_stampsAt hstamp
  · exact fun hdeclares hne => .inl (.inl ⟨hdeclares, hne⟩)

/-- A new row has the columns of its entity. -/
theorem hasColumns_insertRow {e : Entity} (hcolumns : e.columns ≠ [])
    (hkey : e.declares e.primaryKey) (store : Memory) (data : Record) :
    HasColumns e (store.insertRow e data).1 := by
  have hnew := mem_keys_newRow hcolumns store.clock data
  intro key
  change key ∈ Record.keys (store.assignKey e (Memory.newRow e store.clock data)).1 ↔ _
  unfold Memory.assignKey
  dsimp only
  split
  · rw [Record.mem_keys_put]
    constructor
    · rintro (rfl | hold)
      · exact hkey
      · exact (hnew key).1 hold
    · intro hdeclares
      by_cases hne : key = e.primaryKey
      · exact .inl hne
      · exact .inr ((hnew key).2 hdeclares hne)
  · next hgiven =>
      refine ⟨(hnew key).1, ?_⟩
      intro hdeclares
      by_cases hne : key = e.primaryKey
      · -- a key that is not null is the value of a member
        have hmem := (Record.cell_eq_null_or (Memory.newRow e store.clock data)
          e.primaryKey).resolve_left fun hnull => hgiven (by rw [hnull]; rfl)
        exact hne ▸ Record.mem_keys_of_mem hmem
      · exact (hnew key).2 hdeclares hne

/-- A change assigns columns only. -/
theorem hasColumns_putAll_assigned {e : Entity} (hcolumns : e.columns ≠ []) {row : Record}
    (hrow : HasColumns e row) (clock : String) (data : Record) (touch : Bool) :
    HasColumns e (Record.putAll row (Memory.assigned e clock data touch)) := by
  intro key
  rw [Record.mem_keys_putAll, hrow key, or_iff_left_iff_imp]
  intro hassigned
  unfold Memory.assigned at hassigned
  rw [Record.keys, List.map_append] at hassigned
  rcases List.mem_append.mp hassigned with hdata | hstamp
  · exact declares_of_mem_keys_writable hcolumns (Record.mem_keys_keep.mp hdata).2
  · split at hstamp
    · exact declares_of_mem_keys_stampsAt hstamp
    · cases hstamp

theorem rowInvariant_hasColumns {m : Model} (hm : m.IsResolved)
    (hcolumns : ∀ e ∈ m.entities, e.columns ≠ []) (kind : Record → Prop) :
    RowInvariant m kind HasColumns where
  inserted e he store data _ :=
    hasColumns_insertRow (hcolumns e he) (hm.declaresKey e he (hcolumns e he)) store data
  updated e he clock data touch _ _ hrow :=
    hasColumns_putAll_assigned (hcolumns e he) hrow clock data touch

/-- The rows of a store have the columns of their entities after any operations. -/
theorem hasColumns_operateAt {m : Model} (hm : m.IsResolved)
    (hcolumns : ∀ e ∈ m.entities, e.columns ≠ []) {operations : List (String × Operation)}
    (hoperations : ∀ timed ∈ operations, timed.2.IsWithin m fun _ => True) {empty : Memory}
    (hempty : empty.tables = []) : (empty.operateAt operations).Holds m HasColumns :=
  holds_operateAt hm (rowInvariant_hasColumns hm hcolumns _) hoperations
    (holds_of_tables_eq_nil hempty)

end EntityService
