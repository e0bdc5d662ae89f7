import EntityService.Proofs.Composition
import EntityService.Proofs.Handling
import EntityService.Store.Related

/-!
# Actions that spare the rows

Of the actions on a store in memory, some change nothing in it, and most change nothing when they
fail.

## Main definitions

* `Memory.Alike` — two stores differ in nothing but the queries that they have recorded
* `Memory.insertAll` — the store after rows have been added one after the other
* `Action.Reads`, `Action.Spares` — an action changes nothing at all, or nothing when it fails

## Main results

* `reads_run`, `spares_run` — the commands that change nothing, and those that do not when they fail
* `createMultiple_rows` — which of many rows are added

## Design notes

The operations of a store in memory never fail, and each operation of a repository goes to the store
for a change last.  So whatever fails comes before the change; only the operation that adds many
rows goes on after one.
-/

namespace EntityService

open EntityService.Http EntityService.Json EntityService.Model EntityService.Query
open EntityService.Store EntityService.Validation

variable {τ α β : Type}

/-! ## Stores -/

namespace Store.Memory

/-- The stores differ in nothing but the queries that they have recorded. -/
def Alike (a b : Memory) : Prop := { a with log := b.log } = b

theorem Alike.refl (m : Memory) : m.Alike m := rfl

theorem Alike.trans {a b c : Memory} (hab : a.Alike b) (hbc : b.Alike c) : a.Alike c := by
  have hlogs : ({ a with log := c.log } : Memory) =
      { ({ a with log := b.log } : Memory) with log := c.log } := rfl
  show ({ a with log := c.log } : Memory) = c
  rw [hlogs, hab]
  exact hbc

theorem alike_record (m : Memory) (operation : String) (p : Plan) :
    (m.record operation p).Alike m := by
  unfold record
  split <;> rfl

/-- The store after rows for data have been added one after the other. -/
def insertAll (e : Entity) (items : List Record) (m : Memory) : Memory :=
  items.foldl (fun m data => (m.insertRow e data).2) m

@[simp] theorem insertAll_nil (e : Entity) (m : Memory) : m.insertAll e [] = m := rfl

@[simp] theorem insertAll_cons (e : Entity) (data : Record) (rest : List Record) (m : Memory) :
    m.insertAll e (data :: rest) = (m.insertRow e data).2.insertAll e rest := rfl

end Store.Memory

/-! ## Actions that change nothing -/

namespace Action

/-- An action changes nothing in the store that a state holds. -/
def Reads (store : τ → Memory) (a : Action τ α) : Prop :=
  ∀ s, (store (a s).2).Alike (store s)

/-- An action that fails has changed nothing in the store that a state holds. -/
def Spares (store : τ → Memory) (a : Action τ α) : Prop :=
  ∀ s cause, (a s).1 = .error cause → (store (a s).2).Alike (store s)

variable {store : τ → Memory}

theorem Reads.spares {a : Action τ α} (h : Reads store a) : Spares store a :=
  fun s _ _ => h s

theorem reads_of_store_eq {a : Action τ α} (h : ∀ s, store (a s).2 = store s) : Reads store a := by
  intro s
  rw [h s]
  exact Memory.Alike.refl _

theorem reads_pure (x : α) : Reads store (Pure.pure x) := reads_of_store_eq fun _ => rfl

theorem reads_fail (cause : Error) : Reads store (fail cause : Action τ α) :=
  reads_of_store_eq fun _ => rfl

theorem Reads.bind {first : Action τ α} {next : α → Action τ β} (hfirst : Reads store first)
    (hnext : ∀ x, Reads store (next x)) : Reads store (first >>= next) := by
  intro s
  cases hresult : (first s).1 with
  | error cause =>
      rw [bind_apply_of_error hresult]
      exact hfirst s
  | ok x =>
      rw [bind_apply_of_ok hresult]
      exact (hnext x _).trans (hfirst s)

/-- To read first does no harm. -/
theorem Reads.bind_spares {first : Action τ α} {next : α → Action τ β}
    (hfirst : Reads store first) (hnext : ∀ x, Spares store (next x)) :
    Spares store (first >>= next) := by
  intro s cause
  cases hresult : (first s).1 with
  | error other =>
      rw [bind_apply_of_error hresult]
      intro _
      exact hfirst s
  | ok x =>
      rw [bind_apply_of_ok hresult]
      intro hcause
      exact (hnext x _ cause hcause).trans (hfirst s)

/-- What follows may be a change of the value. -/
theorem Spares.bind_pure {a : Action τ α} (h : Spares store a) (f : α → β) :
    Spares store (a >>= fun x => Pure.pure (f x)) := by
  intro s cause hcause
  rw [bind_pure_apply] at hcause ⊢
  cases hresult : (a s).1 with
  | error other => exact h s other hresult
  | ok x =>
      rw [mapValue_fst, hresult] at hcause
      cases hcause

/-- The values that an action ends with have a property. -/
def Gives (good : α → Prop) (a : Action τ α) : Prop := ∀ s x, (a s).1 = .ok x → good x

theorem gives_pure {good : α → Prop} {x : α} (h : good x) :
    Gives good (Pure.pure x : Action τ α) := by
  intro s y hy
  obtain rfl : x = y := Except.ok.inj hy
  exact h

/-- The values of a sequence are those of its last part. -/
theorem Gives.bind {good : β → Prop} {first : Action τ α} {next : α → Action τ β}
    (h : ∀ x, Gives good (next x)) : Gives good (first >>= next) := by
  intro s y hy
  cases hresult : (first s).1 with
  | error cause =>
      rw [bind_apply_of_error hresult] at hy
      cases hy
  | ok x =>
      rw [bind_apply_of_ok hresult] at hy
      exact h x _ y hy

/-- Nothing has to be shown of an action that never fails. -/
theorem spares_of_ok {a : Action τ α} (h : ∀ s, ∃ x, (a s).1 = .ok x) : Spares store a := by
  intro s cause hcause
  obtain ⟨x, hx⟩ := h s
  rw [hx] at hcause
  cases hcause

end Action

/-! ## The operations of a repository -/

namespace Session

open EntityService.Action

/-- Whatever reads from a store in memory changes nothing in it. -/
theorem reading_reads :
    Reading (fun _ (a : Action (Session Memory) _) => Reads Session.store a) where
  pure := reads_pure
  fail := reads_fail
  bind := Reads.bind
  asks _ := reads_of_store_eq fun _ => rfl
  take _ := reads_of_store_eq fun _ => rfl
  rows p _ s := s.store.alike_record "get" p
  page p _ _ _ s := s.store.alike_record "paginate" p
  size p s := s.store.alike_record "count" p

theorem spares_create (data : Record) :
    Spares Session.store (create data : Action (Session Memory) Value) := by
  refine (reading_reads.take _).bind_spares fun _ => ?_
  refine (reading_reads.check data .create).bind_spares fun _ => ?_
  refine (reading_reads.asks _).bind_spares fun e => ?_
  exact spares_of_ok fun s => ⟨_, rfl⟩

/-- A change by key either finds no row, and then does nothing, or gives the changed row. -/
theorem spares_write (e : Entity) (id : Value) (data : Record) (touch : Bool) (cause : Error) :
    Spares Session.store (onStore (Storage.updateByKey e id data touch) >>= fun row =>
      ofOption cause row : Action (Session Memory) Value) := by
  intro s other hother
  have hchanged : (onStore (Storage.updateByKey e id data touch) s).1 =
      .ok ((s.store.updateRow e id data touch).1.map Value.object) := rfl
  have hstore : (onStore (Storage.updateByKey e id data touch) s).2.store =
      (s.store.updateRow e id data touch).2 := rfl
  rw [bind_apply_of_ok hchanged] at hother ⊢
  cases hrow : (s.store.updateRow e id data touch).1 with
  | some row =>
      rw [hrow] at hother
      cases hother
  | none =>
      rw [s.store.updateRow_snd_of_fst_eq_none e id data touch hrow] at hstore
      show Memory.Alike _ s.store
      rw [← hstore]
      exact Memory.Alike.refl _

theorem spares_updateById (id : Value) (data : Record) (touch : Bool) :
    Spares Session.store (updateById id data touch : Action (Session Memory) Value) := by
  refine (reading_reads.take _).bind_spares fun _ => ?_
  refine (reading_reads.find id []).bind_spares fun _ => ?_
  refine (reading_reads.check data .update).bind_spares fun _ => ?_
  refine (reading_reads.asks _).bind_spares fun e => ?_
  exact spares_write e id data touch _

theorem spares_deleteById (id : Value) :
    Spares Session.store (deleteById id : Action (Session Memory) Bool) := by
  refine (reading_reads.take _).bind_spares fun _ => ?_
  refine (reading_reads.find id []).bind_spares fun _ => ?_
  refine (reading_reads.take _).bind_spares fun plan => ?_
  exact spares_of_ok fun s => ⟨_, rfl⟩

theorem spares_deleteMultipleById (ids : List Value) :
    Spares Session.store (deleteMultipleById ids : Action (Session Memory) Nat) := by
  refine (reading_reads.take _).bind_spares fun _ => ?_
  split
  · exact (reads_pure 0).spares
  · exact (reading_reads.asks _).bind_spares fun plan => spares_of_ok fun s => ⟨_, rfl⟩

end Session

/-- Of many rows those before the first one that breaks a rule are added. -/
theorem createMultiple_rows {e : Entity} (items : List Record) {s : Session Memory}
    (he : s.repository.entity = e) :
    (Session.createMultiple items s).2.store =
        s.store.insertAll e (items.takeWhile (e.admits .create)) ∧
      match items.dropWhile (e.admits .create) with
      | [] => ∃ rows, (Session.createMultiple items s).1 = .ok rows
      | failing :: _ => ∃ violation, violation? e failing .create = some violation ∧
          (Session.createMultiple items s).1 = .error (.invalid violation) := by
  induction items generalizing s with
  | nil => exact ⟨rfl, _, rfl⟩
  | cons data rest ih =>
      have hcreate := Session.create_apply data s
      rw [he] at hcreate
      cases hviolation : violation? e data .create with
      | some violation =>
          have hadmits : e.admits .create data = false := by rw [Entity.admits, hviolation]; rfl
          rw [hviolation] at hcreate
          rw [Session.createMultiple_cons_of_error (congrArg Prod.fst hcreate), hcreate,
            List.takeWhile_cons_of_neg (by simp [hadmits]),
            List.dropWhile_cons_of_neg (by simp [hadmits])]
          exact ⟨rfl, violation, hviolation, rfl⟩
      | none =>
          -- the row is added, and the others go to the store that holds it
          have hadmits : e.admits .create data := by rw [Entity.admits, hviolation]; rfl
          rw [hviolation] at hcreate
          have hafter : (Session.create data s).2.repository.entity = e := by
            rw [hcreate]
            exact he
          obtain ⟨hstore, hresult⟩ := ih hafter
          rw [Session.createMultiple_cons_of_ok (congrArg Prod.fst hcreate),
            List.takeWhile_cons_of_pos hadmits, List.dropWhile_cons_of_pos hadmits]
          have hinserted : (Session.create data s).2.store = (s.store.insertRow e data).2 := by
            rw [hcreate]
            rfl
          refine ⟨?_, ?_⟩
          · show (Session.createMultiple rest _).2.store = _
            rw [hstore, hinserted, Memory.insertAll_cons]
          · rw [Action.mapValue_fst]
            cases hleft : rest.dropWhile (e.admits .create) with
            | nil =>
                rw [hleft] at hresult
                obtain ⟨rows, hrows⟩ := hresult
                exact ⟨_, by rw [hrows]; rfl⟩
            | cons failing after =>
                rw [hleft] at hresult
                obtain ⟨violation, hfailing, herror⟩ := hresult
                exact ⟨violation, hfailing, by rw [herror]; rfl⟩

/-! ## Commands -/

namespace Http

open EntityService.Action

/-- An operation of a repository does to the store of a command what it does to the one of its
session. -/
theorem reads_inSession {a : Action (Session Memory) α} (h : Reads Session.store a)
    (r : Repository) : Reads id (inSession r a) :=
  fun s => h ⟨r, s⟩

theorem spares_inSession {a : Action (Session Memory) α} (h : Spares Session.store a)
    (r : Repository) : Spares id (inSession r a) :=
  fun s => h ⟨r, s⟩

theorem reads_entityFor (m : Model) (segment operation : String) :
    Reads id (entityFor m segment operation : Action Memory Entity) :=
  reads_of_store_eq fun s => entityFor_store m segment operation s

theorem reads_accepted (read : Except Fault α) : Reads id (accepted read : Action Memory α) := by
  cases read with
  | ok x => exact reads_pure x
  | error fault => exact reads_fail _

/-- The commands that only look at rows. -/
def Command.isReading : Command → Bool
  | .list _ _ => true
  | .read _ _ _ => true
  | _ => false

/-- The command that adds many rows. -/
def Command.isBulk : Command → Bool
  | .createMany _ _ => true
  | _ => false

/-- The commands that only look at rows change nothing. -/
theorem reads_run (m : Model) {command : Command} (h : command.isReading) :
    Reads id (command.run m : Action Memory Response) := by
  cases command with
  | list segment params =>
      refine (reads_entityFor m segment "read").bind fun e => ?_
      dsimp only
      split
      · exact (reads_inSession Session.reading_reads.search _).bind fun _ => reads_pure _
      · exact (reads_inSession (Session.reading_reads.all []) _).bind fun _ => reads_pure _
  | read segment key params =>
      refine (reads_entityFor m segment "read").bind fun e => ?_
      refine (reads_accepted _).bind fun key => ?_
      exact (reads_inSession (Session.reading_reads.find key []) _).bind fun _ => reads_pure _
  | _ => cases h

theorem spares_deleteListed (m : Model) (e : Entity) (body : String) :
    Spares id (deleteListed m e body : Action Memory Response) := by
  refine (reads_accepted _).bind_spares fun ids => ?_
  exact (spares_inSession (Session.spares_deleteMultipleById ids) _).bind_pure _

/-- All commands but the one that adds many rows change nothing when they fail. -/
theorem spares_run (m : Model) {command : Command} (h : ¬command.isBulk) :
    Spares id (command.run m : Action Memory Response) := by
  cases command with
  | list segment params => exact (reads_run m rfl).spares
  | read segment key params => exact (reads_run m rfl).spares
  | createMany segment body => exact absurd rfl h
  | create segment body =>
      refine (reads_entityFor m segment "create").bind_spares fun e => ?_
      refine (reads_accepted _).bind_spares fun data => ?_
      exact (spares_inSession (Session.spares_create data) _).bind_pure _
  | update segment key body =>
      refine (reads_entityFor m segment "update").bind_spares fun e => ?_
      refine (reads_accepted _).bind_spares fun key => ?_
      refine (reads_accepted _).bind_spares fun data => ?_
      exact (spares_inSession (Session.spares_updateById key data true) _).bind_pure _
  | deleteMany segment body =>
      exact (reads_entityFor m segment "delete").bind_spares fun e => spares_deleteListed m e body
  | delete segment key body =>
      refine (reads_entityFor m segment "delete").bind_spares fun e => ?_
      split
      · exact spares_deleteListed m e body
      · refine (reads_accepted _).bind_spares fun key => ?_
        exact (spares_inSession (Session.spares_deleteById key) _).bind_pure _

end Http

end EntityService
