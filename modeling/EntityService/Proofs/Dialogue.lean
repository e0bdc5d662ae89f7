import EntityService.Proofs.Composition
import EntityService.Proofs.Confinement
import EntityService.Store.Database
import Mathlib.Logic.Basic

/-!
# Dialogues with a database

What the operations that write send to a database, whatever the database replies.

## Main definitions

* `Link.reply` — the replies that an open connection will give
* `Database.told` — the database after statements have been sent
* `Action.Converses` — an action stops at the first statement that is refused
* `gateAnd` — the conditions of rows in use, and one more

## Main results

* `writing_converses` — every operation stops at the first statement that is refused
* `create_told`, `createMultiple_told`, `updateById_told`, `deleteById_told`,
  `deleteMultipleById_told` — the statements that are sent, by the replies
* `writes_are_guarded` — the same of every repository of an entity, with what the statements carry

## Design notes

The replies of a database are given in advance, but nothing is assumed about them, so they may
depend on the statements in any way.  The state of a database after an operation is given as a
whole: which statements were sent, and how many replies were taken.
-/

namespace EntityService

open EntityService.Json EntityService.Model EntityService.Query EntityService.Sql
open EntityService.Store EntityService.Validation

/-! ## Replies -/

namespace Store

namespace Reply

/-- The rows of a reply, or the error that it stands for. -/
def read : Reply → Except Error Reply.Rows
  | .rows r => .ok r
  | .refused code text => .error (.database (.refused code text))

/-- A reply gives a row at least. -/
def givesRow : Reply → Bool
  | .rows r => !r.cells.isEmpty
  | .refused _ _ => false

/-- The first row of a reply, if it has one. -/
def firstRow (r : Reply) : Except Error (Option Value) := r.read.map fun rows => rows.values.head?

/-- A reply with a first row gives a row, and any other reply does not. -/
theorem givesRow_eq (r : Reply) :
    r.givesRow = match r.firstRow with
      | .ok (some _) => true
      | _ => false := by
  cases r with
  | refused code text => rfl
  | rows r =>
      obtain ⟨columns, cells, affected⟩ := r
      cases cells <;> rfl

end Reply

namespace Link

/-- The connection is open. -/
def isOpen : Link → Bool
  | .closed => false
  | .replies _ => true

/-- The reply to come after `n` others.  A database that has nothing to say replies without rows. -/
def reply : Link → Nat → Reply
  | .closed, _ => .rows {}
  | .replies toCome, n => (toCome[n]?).getD (.rows {})

/-- The connection after `n` replies. -/
def after : Link → Nat → Link
  | .closed, _ => .closed
  | .replies toCome, n => .replies (toCome.drop n)

@[simp] theorem isOpen_after (l : Link) (n : Nat) : (l.after n).isOpen = l.isOpen := by
  cases l <;> rfl

@[simp] theorem reply_after (l : Link) (n k : Nat) : (l.after n).reply k = l.reply (n + k) := by
  cases l with
  | closed => rfl
  | replies toCome => simp only [after, reply, List.getElem?_drop]

@[simp] theorem after_zero (l : Link) : l.after 0 = l := by
  cases l <;> rfl

theorem after_after (l : Link) (n k : Nat) : (l.after n).after k = l.after (n + k) := by
  cases l with
  | closed => rfl
  | replies toCome => simp only [after, List.drop_drop]

end Link

namespace Database

/-- The database after statements have been sent. -/
def told (statements : List Statement) (d : Database) : Database :=
  { d with link := d.link.after statements.length, sent := d.sent ++ statements }

@[simp] theorem told_nil (d : Database) : d.told [] = d := by
  simp only [told, List.length_nil, Link.after_zero, List.append_nil]

@[simp] theorem told_told (d : Database) (first rest : List Statement) :
    (d.told first).told rest = d.told (first ++ rest) := by
  simp only [told, Link.after_after, List.length_append, List.append_assoc]

@[simp] theorem told_model (d : Database) (statements : List Statement) :
    (d.told statements).model = d.model := rfl

@[simp] theorem isOpen_told (d : Database) (statements : List Statement) :
    (d.told statements).link.isOpen = d.link.isOpen :=
  d.link.isOpen_after _

@[simp] theorem reply_told (d : Database) (statements : List Statement) (n : Nat) :
    (d.told statements).link.reply n = d.link.reply (statements.length + n) :=
  d.link.reply_after _ n

section Open

variable {d : Database} (hopen : d.link.isOpen)
include hopen

/-- A statement that is sent takes one reply. -/
theorem send_apply (s : Statement) : send s d = ((d.link.reply 0).read, d.told [s]) := by
  obtain ⟨model, link, sent⟩ := d
  cases link with
  | closed => cases hopen
  | replies toCome =>
      cases toCome with
      | nil => rfl
      | cons r rest => cases r <;> rfl

theorem askRows_apply (s : Statement) :
    askRows s d = ((d.link.reply 0).read.map Reply.Rows.values, d.told [s]) := by
  rw [askRows, Action.mapValue, send_apply hopen]

/-- The first row of a plan is asked for with one statement. -/
theorem first_apply (p : Plan) (columns : List String) :
    Storage.first p columns d =
      ((d.link.reply 0).firstRow, d.told [select d.model (p.add (.take 1)) columns none]) := by
  have hrows := askRows_apply hopen (select d.model (p.add (.take 1)) columns none)
  show (askRows (select d.model (p.add (.take 1)) columns none)).mapValue List.head? d = _
  rw [Action.mapValue, hrows, Reply.firstRow]
  cases (d.link.reply 0).read <;> rfl

theorem delete_apply (p : Plan) :
    Storage.delete p d =
      ((d.link.reply 0).read.map Reply.Rows.affected, d.told [deleteRows p]) := by
  show (send (deleteRows p)).mapValue Reply.Rows.affected d = _
  rw [Action.mapValue, send_apply hopen]

theorem updateByKey_apply (e : Entity) (id : Value) (data : Record) (touch : Bool) :
    Storage.updateByKey e id data touch d =
      ((d.link.reply 0).firstRow, d.told [update e id data touch]) := by
  show (askRows (update e id data touch)).mapValue List.head? d = _
  rw [Action.mapValue, askRows_apply hopen, Reply.firstRow]
  cases (d.link.reply 0).read <;> rfl

/-- A row that is added has to be given back. -/
theorem insert_apply (e : Entity) (data : Record) :
    Storage.insert e data d =
      (match (d.link.reply 0).firstRow with
        | .ok (some row) => .ok row
        | .ok none => .error (.database .noRow)
        | .error cause => .error cause,
      d.told [insert e data]) := by
  have hrows := askRows_apply hopen (insert e data)
  show (askRows (insert e data) >>= fun rows =>
    Action.ofOption (.database .noRow) rows.head?) d = _
  cases hread : (d.link.reply 0).read with
  | error cause =>
      rw [hread] at hrows
      rw [Action.bind_apply_of_error (congrArg Prod.fst hrows), hrows, Reply.firstRow, hread]
      rfl
  | ok rows =>
      rw [hread] at hrows
      rw [Action.bind_apply_of_ok (congrArg Prod.fst hrows), hrows, Reply.firstRow, hread]
      show Action.ofOption _ rows.values.head? _ = _
      cases hhead : rows.values.head? with
      | none => simp only [Except.map, hhead]; rfl
      | some row => simp only [Except.map, hhead]; rfl

end Open

end Database

end Store

/-! ## Actions that stop at a refusal -/

namespace Action

variable {τ α β : Type}

/-- An action on a state that holds a database does nothing to it but send statements, and the first
one that is refused is the last one: the action fails with what the database says. -/
def Converses (store : τ → Database) (a : Action τ α) : Prop :=
  ∀ s, (store s).link.isOpen → ∃ statements, store (a s).2 = (store s).told statements ∧
    ∀ n < statements.length, ∀ code text, (store s).link.reply n = .refused code text →
      n + 1 = statements.length ∧ (a s).1 = .error (.database (.refused code text))

variable {store : τ → Database}

/-- An action that sends nothing. -/
theorem converses_of_store_eq {a : Action τ α} (h : ∀ s, store (a s).2 = store s) :
    Converses store a := by
  intro s _
  refine ⟨[], ?_, fun n hn => absurd hn (Nat.not_lt_zero n)⟩
  rw [h s, Database.told_nil]

theorem converses_pure (x : α) : Converses store (Pure.pure x) :=
  converses_of_store_eq fun _ => rfl

theorem converses_fail (cause : Error) : Converses store (fail cause : Action τ α) :=
  converses_of_store_eq fun _ => rfl

theorem Converses.bind {first : Action τ α} {next : α → Action τ β}
    (hfirst : Converses store first) (hnext : ∀ x, Converses store (next x)) :
    Converses store (first >>= next) := by
  intro s hopen
  obtain ⟨before, hbefore, hrefused⟩ := hfirst s hopen
  cases hresult : (first s).1 with
  | error cause =>
      rw [bind_apply_of_error hresult]
      refine ⟨before, hbefore, fun n hn code text hreply => ?_⟩
      obtain ⟨hlast, hcause⟩ := hrefused n hn code text hreply
      rw [hresult] at hcause
      exact ⟨hlast, congrArg Except.error (Except.error.inj hcause)⟩
  | ok x =>
      rw [bind_apply_of_ok hresult]
      have hopen' : (store (first s).2).link.isOpen := by
        rw [hbefore, Database.isOpen_told]
        exact hopen
      obtain ⟨rest, hrest, hrefusedRest⟩ := hnext x (first s).2 hopen'
      refine ⟨before ++ rest, ?_, fun n hn code text hreply => ?_⟩
      · rw [hrest, hbefore, Database.told_told]
      · by_cases hlt : n < before.length
        · -- the first part has come to its end, so none of its statements was refused
          obtain ⟨-, hcause⟩ := hrefused n hlt code text hreply
          rw [hresult] at hcause
          cases hcause
        · rw [List.length_append] at hn ⊢
          have hreply' : (store (first s).2).link.reply (n - before.length) =
              .refused code text := by
            rw [hbefore, Database.reply_told, Nat.add_sub_cancel' (Nat.le_of_not_lt hlt)]
            exact hreply
          obtain ⟨hlast, hcause⟩ :=
            hrefusedRest (n - before.length) (by omega) code text hreply'
          exact ⟨by omega, hcause⟩

theorem Converses.mapValue {a : Action τ α} (h : Converses store a) (f : α → β) :
    Converses store (a.mapValue f) := by
  intro s hopen
  obtain ⟨statements, hstatements, hrefused⟩ := h s hopen
  refine ⟨statements, hstatements, fun n hn code text hreply => ?_⟩
  obtain ⟨hlast, hcause⟩ := hrefused n hn code text hreply
  exact ⟨hlast, by rw [mapValue_fst, hcause]; rfl⟩

end Action

namespace Store.Database

open EntityService.Action

theorem converses_send (s : Statement) : Converses id (send s) := by
  intro d hopen
  have hsend : send s d = ((d.link.reply 0).read, d.told [s]) := send_apply hopen s
  refine ⟨[s], congrArg Prod.snd hsend, fun n hn code text hreply => ?_⟩
  obtain rfl : n = 0 := Nat.lt_one_iff.mp hn
  have hread : (d.link.reply 0).read = .error (.database (.refused code text)) :=
    congrArg Reply.read hreply
  exact ⟨rfl, (congrArg Prod.fst hsend).trans hread⟩

theorem converses_askRows (s : Statement) : Converses id (askRows s) :=
  (converses_send s).mapValue _

theorem converses_askCount (s : Statement) : Converses id (askCount s) := by
  refine (converses_send s).bind fun rows => ?_
  cases rows.countOf with
  | ok count => exact converses_pure count
  | error cause => exact converses_fail _

end Store.Database

namespace Session

open EntityService.Action Database

variable {α : Type}

theorem converses_onStore {a : Action Database α} (h : Converses id a) :
    Converses Session.store (onStore a) :=
  fun s => h s.store

/-- Every operation of a repository stops at the first statement that is refused. -/
theorem writing_converses :
    Writing (fun _ (a : Action (Session Database) _) => Converses Session.store a) where
  pure := converses_pure
  fail := converses_fail
  bind := Converses.bind
  asks _ := converses_of_store_eq fun _ => rfl
  take _ := converses_of_store_eq fun _ => rfl
  rows p columns := converses_onStore fun d => converses_askRows (select d.model p columns none) d
  page p columns perPage number := by
    refine converses_onStore fun d => ?_
    exact ((converses_askCount (countRows p)).bind fun total =>
      (converses_askRows (select d.model p columns _)).mapValue _) d
  size p := converses_onStore (converses_askCount (countRows p))
  insert e data := by
    refine converses_onStore ((converses_askRows (insert e data)).bind fun rows => ?_)
    cases rows.head? with
    | none => exact converses_fail _
    | some row => exact converses_pure row
  update e id data touch :=
    converses_onStore ((converses_askRows (update e id data touch)).mapValue _)
  remove p := converses_onStore ((converses_send (deleteRows p)).mapValue _)

end Session

/-! ## What the operations send -/

namespace Session

open Database

/-- What a look-up of a key comes to, by the reply to its statement. -/
def lookedUp (e : Entity) (id : Value) (r : Reply) : Except Error Value :=
  match r.firstRow with
  | .ok (some row) => .ok row
  | .ok none => .error (.notFound (.row e.id id))
  | .error cause => .error cause

section Told

variable {s : Session Database} (hopen : s.store.link.isOpen)
include hopen

/-- To look a row up is to send one statement and to read its reply. -/
theorem find_eq_told (id : Value) (columns : List String) :
    find id columns s = (lookedUp s.repository.entity id (s.store.link.reply 0),
      ⟨s.repository.drained, s.store.told
        [select s.store.model ((s.repository.keyPlan id).add (.take 1)) columns none]⟩) := by
  let plan := s.repository.keyPlan id
  have hfind : find id columns s = (onStore (Storage.first plan columns) >>= fun row =>
      asks (·.entity.id) >>= fun entity => Action.ofOption (.notFound (.row entity id)) row)
        s.drained := rfl
  have hfirst : onStore (Storage.first plan columns) s.drained =
      ((s.store.link.reply 0).firstRow, ⟨s.repository.drained, s.store.told
        [select s.store.model (plan.add (.take 1)) columns none]⟩) := by
    have hsent := first_apply (d := s.drained.store) hopen plan columns
    rw [onStore_apply, hsent]
    rfl
  rw [hfind, lookedUp]
  cases hrow : (s.store.link.reply 0).firstRow with
  | error cause =>
      rw [hrow] at hfirst
      rw [Action.bind_apply_of_error (congrArg Prod.fst hfirst), hfirst]
  | ok row =>
      rw [hrow] at hfirst
      rw [Action.bind_apply_of_ok (congrArg Prod.fst hfirst), hfirst]
      cases row <;> rfl

/-- To look a row up is to send one statement; a row is found when the reply gives one. -/
theorem find_told (id : Value) (columns : List String) :
    (find id columns s).2 = ⟨s.repository.drained, s.store.told
        [select s.store.model ((s.repository.keyPlan id).add (.take 1)) columns none]⟩ ∧
      ((∃ row, (find id columns s).1 = .ok row) ↔ (s.store.link.reply 0).givesRow) := by
  rw [find_eq_told hopen, Reply.givesRow_eq]
  refine ⟨rfl, ?_⟩
  show (∃ row, lookedUp s.repository.entity id (s.store.link.reply 0) = .ok row) ↔ _
  rw [lookedUp]
  cases (s.store.link.reply 0).firstRow with
  | error cause => simp
  | ok row => cases row <;> simp

/-- A row is added with one statement, unless its data break a rule. -/
theorem create_told (data : Record) :
    (create data s).2 = ⟨s.repository.drained, s.store.told
        (if s.repository.entity.admits .create data then [insert s.repository.entity data]
          else [])⟩ ∧
      ((∃ row, (create data s).1 = .ok row) ↔
        s.repository.entity.admits .create data ∧ (s.store.link.reply 0).givesRow) := by
  rw [create_apply, Entity.admits]
  cases violation? s.repository.entity data .create with
  | some violation =>
      refine ⟨?_, by simp⟩
      rw [if_neg (by simp), told_nil]
      rfl
  | none =>
      have hinsert := insert_apply (d := s.store) hopen s.repository.entity data
      refine ⟨?_, ?_⟩
      · rw [if_pos (by simp)]
        exact congrArg (Session.mk s.repository.drained) (congrArg Prod.snd hinsert)
      · show (∃ row, (Storage.insert s.repository.entity data s.store).1 = .ok row) ↔ _
        rw [hinsert, Reply.givesRow_eq]
        cases (s.store.link.reply 0).firstRow with
        | error cause => simp
        | ok row => cases row <;> simp

end Told

/-- Rows are added one by one, up to the first one whose data break a rule or that is not given
back. -/
theorem createMultiple_told (items : List Record) {e : Entity} {s : Session Database}
    (he : s.repository.entity = e) (hopen : s.store.link.isOpen) :
    ∃ count ≤ items.length,
      (createMultiple items s).2.store = s.store.told ((items.take count).map (insert e)) ∧
      (∀ data ∈ items.take count, e.admits .create data) ∧
      (∀ n, n + 1 < count → (s.store.link.reply n).givesRow) ∧
      (count < items.length → (∃ data, items[count]? = some data ∧ ¬e.admits .create data) ∨
        ∃ n, n + 1 = count ∧ ¬(s.store.link.reply n).givesRow) := by
  induction items generalizing s with
  | nil => exact ⟨0, Nat.le_refl 0, (told_nil _).symm, nofun, nofun, nofun⟩
  | cons data rest ih =>
      obtain ⟨hafter, hrow⟩ := create_told hopen data
      rw [he] at hafter hrow
      cases hresult : (create data s).1 with
      | error cause =>
          have hfails : ¬(e.admits .create data ∧ (s.store.link.reply 0).givesRow) := by
            rw [← hrow, hresult]
            simp
          rw [createMultiple_cons_of_error hresult, hafter]
          by_cases hadmits : e.admits .create data
          · -- the statement was sent, but its reply gives no row
            rw [if_pos hadmits]
            refine ⟨1, by simp, rfl, by simpa using hadmits, by omega, fun _ => .inr ⟨0, rfl, ?_⟩⟩
            exact fun hgives => hfails ⟨hadmits, hgives⟩
          · rw [if_neg hadmits]
            exact ⟨0, by simp, rfl, nofun, nofun, fun _ => .inl ⟨data, rfl, hadmits⟩⟩
      | ok row =>
          obtain ⟨hadmits, hgives⟩ := hrow.mp ⟨row, hresult⟩
          rw [if_pos hadmits] at hafter
          obtain ⟨count, hcount, htold, hall, hbefore, hstop⟩ :=
            ih (s := (create data s).2) (by rw [hafter]; exact he)
              (by rw [hafter, isOpen_told]; exact hopen)
          have hreply (n : Nat) :
              (create data s).2.store.link.reply n = s.store.link.reply (n + 1) := by
            rw [hafter, reply_told, Nat.add_comm n 1]
            rfl
          rw [createMultiple_cons_of_ok hresult]
          refine ⟨count + 1, Nat.succ_le_succ hcount, ?_, ?_, ?_, ?_⟩
          · show (createMultiple rest (create data s).2).2.store = _
            rw [htold, hafter, told_told]
            rfl
          · rw [List.take_succ_cons]
            exact List.forall_mem_cons.mpr ⟨hadmits, hall⟩
          · intro n hn
            cases n with
            | zero => exact hgives
            | succ n =>
                rw [← hreply]
                exact hbefore n (Nat.lt_of_succ_lt_succ hn)
          · intro hlt
            rcases hstop (Nat.lt_of_succ_lt_succ hlt) with ⟨next, hnext, hbreaks⟩ | ⟨n, hn, hnone⟩
            · exact .inl ⟨next, by rwa [List.getElem?_cons_succ], hbreaks⟩
            · refine .inr ⟨n + 1, congrArg (· + 1) hn, ?_⟩
              rwa [← hreply]

section Told

variable {s : Session Database} (hopen : s.store.link.isOpen)
include hopen

/-- What follows a look-up is done when the reply gives a row. -/
theorem find_bind_told {α : Type} (id : Value) (next : Action (Session Database) α)
    {sent : List Statement}
    (hnext : ∀ t : Session Database, t.repository = s.repository.drained →
      t.store.link.isOpen → (next t).2.store = t.store.told sent) :
    ((find id [] >>= fun _ => next) s.drained).2.store = s.store.told
      (select s.store.model ((s.repository.drained.keyPlan id).add (.take 1)) [] none ::
        if (s.store.link.reply 0).givesRow then sent else []) := by
  obtain ⟨hafter, hrow⟩ := find_told (s := s.drained) hopen id []
  cases hresult : (find id [] s.drained).1 with
  | error cause =>
      have hnone : ¬(s.store.link.reply 0).givesRow := by
        intro hgives
        obtain ⟨row, hok⟩ := hrow.mpr hgives
        rw [hresult] at hok
        cases hok
      rw [Action.bind_apply_of_error hresult, hafter, if_neg hnone]
      rfl
  | ok row =>
      have hgives : (s.store.link.reply 0).givesRow := hrow.mp ⟨row, hresult⟩
      rw [Action.bind_apply_of_ok hresult, hafter, if_pos hgives]
      refine (hnext _ rfl ((s.store.isOpen_told _).trans hopen)).trans ?_
      rw [told_told]
      rfl

/-- A row is changed after it has been found and its data have been checked. -/
theorem updateById_told (id : Value) (data : Record) (touch : Bool) :
    (updateById id data touch s).2.store = s.store.told
      (select s.store.model ((s.repository.drained.keyPlan id).add (.take 1)) [] none ::
        if (s.store.link.reply 0).givesRow ∧ s.repository.entity.admits .update data then
          [update s.repository.entity id data touch]
        else []) := by
  let write : Action (Session Database) Value := do
    let e ← asks (·.entity)
    let row ← onStore (Storage.updateByKey e id data touch)
    Action.ofOption (.notFound (.row e.id id)) row
  have hwrite (t : Session Database) (ht : t.store.link.isOpen) :
      (write t).2.store = t.store.told [update t.repository.entity id data touch] := by
    have hrow := updateByKey_apply ht t.repository.entity id data touch
    show ((onStore (Storage.updateByKey t.repository.entity id data touch) >>= fun row =>
      Action.ofOption _ row) t).2.store = _
    rw [Action.bind_snd fun row => Action.ofOption_snd _ row, onStore_apply, hrow]
  rw [ite_and]
  refine find_bind_told hopen id (check data .update >>= fun _ => write) ?_
  intro t hrepository ht
  have hentity : t.repository.entity = s.repository.entity := by
    rw [hrepository]
    rfl
  rw [check_bind_apply, hentity, Entity.admits]
  cases violation? s.repository.entity data .update with
  | some violation =>
      rw [if_neg (by simp), told_nil]
  | none =>
      rw [if_pos (by simp), ← hentity]
      exact hwrite t ht

/-- Rows are removed after one of them has been found. -/
theorem deleteById_told (id : Value) :
    (deleteById id s).2.store = s.store.told
      (select s.store.model ((s.repository.drained.keyPlan id).add (.take 1)) [] none ::
        if (s.store.link.reply 0).givesRow then [deleteRows (s.repository.drained.keyPlan id)]
        else []) := by
  let remove : Action (Session Database) Bool := do
    let plan ← take (·.keyPlan id)
    return 0 < (← onStore (Storage.delete plan))
  refine find_bind_told hopen id remove ?_
  intro t hrepository ht
  have hcount := delete_apply ht (t.repository.keyPlan id)
  rw [← hrepository]
  show ((onStore (Storage.delete (t.repository.keyPlan id)) >>= fun count =>
    pure (decide (0 < count))) t.drained).2.store = _
  rw [Action.bind_snd fun count _ => rfl, onStore_apply]
  exact congrArg Prod.snd hcount

/-- Rows with listed keys are removed with one statement, if any are listed. -/
theorem deleteMultipleById_told (ids : List Value) :
    (deleteMultipleById ids s).2.store = s.store.told
      (if ids.isEmpty then [] else [deleteRows (s.repository.drained.keysPlan ids)]) := by
  have hdelete : deleteMultipleById ids s = (if ids.isEmpty then pure 0 else
      onStore (Storage.delete (s.repository.drained.keysPlan ids)) :
        Action (Session Database) Nat) s.drained := by
    rw [deleteMultipleById]
    cases ids <;> rfl
  rw [hdelete]
  split
  · exact (told_nil _).symm
  · have hcount := delete_apply (d := s.drained.store) hopen (s.repository.drained.keysPlan ids)
    rw [onStore_apply]
    exact congrArg Prod.snd hcount

end Told

end Session

/-! ## Repositories of an entity -/

section Guarded

variable {m : Model} {e : Entity} {s : Session Database}

/-- The conditions of the rows in use, and one more. -/
def gateAnd (e : Entity) (call : Call) : Statement :=
  words " WHERE " ++ listed " AND " ((e.gateCalls ++ [call]).map (condition e mainAlias))

/-- The statement that looks up the row in use with a key. -/
def lookup (e : Entity) (id : Value) : Statement :=
  words "SELECT " ++ listed ", " (projection e mainAlias []) ++ words " FROM " ++ table e ++
    words (" " ++ mainAlias) ++ gateAnd e (.compare e.primaryKey .eq id) ++ words " ORDER BY " ++
    column mainAlias e.primaryKey ++ words " LIMIT 1"

/-- The statement that removes the rows in use that meet one more condition. -/
def removal (e : Entity) (call : Call) : Statement :=
  words "DELETE FROM " ++ table e ++ words (" AS " ++ mainAlias) ++ gateAnd e call

/-- The conditions of a plan with the gate of its entity and one more filter. -/
theorem wherePart_eq_gateAnd {p : Plan} {call : Call}
    (hfilters : p.calls.filters = p.entity.gateCalls ++ [call]) :
    wherePart p = gateAnd p.entity call := by
  unfold wherePart gateAnd
  rw [hfilters]
  cases p.entity.gateCalls <;> rfl

/-- The filters of a state with the gate of its entity and one more clause. -/
theorem filters_planOf_addClause (clause : Clause) :
    ((Repository.of m e).planOf ((Pending.fresh e.activeFlag).addClause clause)).calls.filters =
      e.gateCalls ++ [.ofClause clause] := by
  refine (filters_compose _ _ _ _).trans ?_
  rw [List.append_nil, Entity.gateCalls]
  cases e.activeFlag <;> rfl

theorem select_keyPlan (id : Value) :
    select s.store.model (((Repository.of m e).keyPlan id).add (.take 1)) [] none =
      lookup e id := by
  let p := ((Repository.of m e).keyPlan id).add (.take 1)
  have hfilters : p.calls.filters = e.gateCalls ++ [.compare e.primaryKey .eq id] :=
    (Calls.filters_append_take _ 1).trans (filters_planOf_addClause (.equality e.primaryKey id))
  have hrelations : p.calls.relations = [] :=
    (Calls.relations_append_take _ _).trans (relations_compose _ _ _ _)
  have hcounts : p.calls.counts = [] :=
    (Calls.counts_append_take _ _).trans (counts_compose _ _ _ _)
  have horders : p.calls.directedOrders = [] := by
    have hnone : p.calls.orders = [] :=
      (Calls.orders_append_take _ _).trans (orders_compose _ _ _ _)
    rw [Calls.directedOrders, hnone]
    rfl
  have hlimit : p.calls.limit? = some 1 := Calls.limit?_append_take _ _
  have hwhere : wherePart p = gateAnd e (.compare e.primaryKey .eq id) :=
    wherePart_eq_gateAnd hfilters
  have horder : orderPart p = words " ORDER BY " ++ column mainAlias e.primaryKey := by
    rw [orderPart, horders]
    rfl
  show select s.store.model p [] none = _
  rw [select, hrelations, hcounts, hlimit, hwhere, horder]
  simp only [relationForest, List.filterMap_nil, List.foldl_nil, subqueries, countSubqueries,
    List.append_nil, Option.map_none, offsetPart, lookup, List.append_assoc]
  rfl

theorem deleteRows_keyPlan (id : Value) :
    deleteRows ((Repository.of m e).keyPlan id) = removal e (.compare e.primaryKey .eq id) := by
  have hlimit : ((Repository.of m e).keyPlan id).calls.limit? = none := limit?_compose _ _ _ _
  have hwhere : wherePart ((Repository.of m e).keyPlan id) =
      gateAnd e (.compare e.primaryKey .eq id) :=
    wherePart_eq_gateAnd (filters_planOf_addClause (.equality e.primaryKey id))
  rw [deleteRows, hlimit, hwhere]
  rfl

theorem deleteRows_keysPlan (ids : List Value) :
    deleteRows ((Repository.of m e).keysPlan ids) = removal e (.oneOf e.primaryKey ids false) := by
  have hlimit : ((Repository.of m e).keysPlan ids).calls.limit? = none := limit?_compose _ _ _ _
  have hwhere : wherePart ((Repository.of m e).keysPlan ids) =
      gateAnd e (.oneOf e.primaryKey ids false) :=
    wherePart_eq_gateAnd (filters_planOf_addClause (.membership e.primaryKey ids false))
  rw [deleteRows, hlimit, hwhere]
  rfl

/-- What the operations that write send for a repository of an entity, whatever the database
replies.  Data that break a rule are never sent.  A row is added with one statement; of many rows
each is added with one statement, up to the first one whose data break a rule or that the database
does not give back.  A row is changed or removed after it has been looked up behind the gate of the
entity, and only when the look-up has given a row; it is removed behind the same conditions, and so
are rows with listed keys.  After a statement that is refused no operation sends another one. -/
theorem writes_are_guarded (hrepository : s.repository.IsOf m e) (hopen : s.store.link.isOpen) :
    let reply := s.store.link.reply
    (∀ data, (Session.create data s).2.store =
      s.store.told (if e.admits .create data then [insert e data] else [])) ∧
    (∀ items, ∃ count ≤ items.length,
      (Session.createMultiple items s).2.store =
        s.store.told ((items.take count).map (insert e)) ∧
      (∀ data ∈ items.take count, e.admits .create data) ∧
      (∀ n, n + 1 < count → (reply n).givesRow) ∧
      (count < items.length → (∃ data, items[count]? = some data ∧ ¬e.admits .create data) ∨
        ∃ n, n + 1 = count ∧ ¬(reply n).givesRow)) ∧
    (∀ id data touch, (Session.updateById id data touch s).2.store = s.store.told (lookup e id ::
      if (reply 0).givesRow ∧ e.admits .update data then [update e id data touch] else [])) ∧
    (∀ id, (Session.deleteById id s).2.store = s.store.told (lookup e id ::
      if (reply 0).givesRow then [removal e (.compare e.primaryKey .eq id)] else [])) ∧
    (∀ ids, (Session.deleteMultipleById ids s).2.store = s.store.told
      (if ids.isEmpty then [] else [removal e (.oneOf e.primaryKey ids false)])) ∧
    ∀ t : Terminal, ∃ statements, (t.run s).2.store = s.store.told statements ∧
      ∀ n < statements.length, ∀ code text, reply n = .refused code text →
        n + 1 = statements.length ∧ (t.run s).1 = .error (.database (.refused code text)) := by
  intro reply
  have hentity := hrepository.entity_eq
  have hkey (id : Value) : s.repository.drained.keyPlan id = (Repository.of m e).keyPlan id := by
    rw [hrepository.drained_eq]
    rfl
  have hkeys (ids : List Value) :
      s.repository.drained.keysPlan ids = (Repository.of m e).keysPlan ids := by
    rw [hrepository.drained_eq]
    rfl
  refine ⟨fun data => ?_, fun items => ?_, fun id data touch => ?_, fun id => ?_, fun ids => ?_,
    fun t => Session.writing_converses.run t s hopen⟩
  · rw [(Session.create_told hopen data).1, hentity]
  · exact Session.createMultiple_told items hentity hopen
  · rw [Session.updateById_told hopen, hkey, select_keyPlan, hentity]
  · rw [Session.deleteById_told hopen, hkey, select_keyPlan, deleteRows_keyPlan]
  · rw [Session.deleteMultipleById_told hopen, hkeys, deleteRows_keysPlan]

/-- A book that the database knows is removed behind the gate; when it then refuses, that is the
end. -/
theorem writes_are_guarded_books :
    let found : Reply := .rows { columns := [("id", "int8")], cells := [[.ofInt 1]] }
    let s : Session Database := ⟨Repository.of Bookshop.model Bookshop.books,
      ⟨Bookshop.model, .replies [found, .refused "40001" "busy"], []⟩⟩
    (Session.deleteById (.ofInt 1) s).2.store.sent =
        [lookup Bookshop.books (.ofInt 1),
          removal Bookshop.books (.compare "id" .eq (.ofInt 1))] ∧
      ((Terminal.deleteById (.ofInt 1)).run s).1 =
        .error (.database (.refused "40001" "busy")) := by
  intro found s
  obtain ⟨-, -, -, hdelete, -, hrun⟩ :=
    writes_are_guarded (s := s) (Repository.isOf_of Bookshop.model Bookshop.books) rfl
  have hsent : (Session.deleteById (.ofInt 1) s).2.store.sent =
      [lookup Bookshop.books (.ofInt 1), removal Bookshop.books (.compare "id" .eq (.ofInt 1))] :=
    congrArg Database.sent (hdelete (.ofInt 1))
  refine ⟨hsent, ?_⟩
  obtain ⟨statements, htold, hrefused⟩ := hrun (.deleteById (.ofInt 1))
  have hstatements : statements = (Session.deleteById (.ofInt 1) s).2.store.sent :=
    (congrArg Database.sent htold).symm
  rw [hsent] at hstatements
  exact (hrefused 1 (by rw [hstatements]; decide) "40001" "busy" rfl).2

end Guarded

end EntityService
