import EntityService.Repository.Run
import Mathlib.Data.Option.Basic

/-!
# Operations and their parts

Every operation on a repository is a sequence of small parts, some of which go to the store.  What
the parts have in common, and sequences keep, all operations have in common.

## Main definitions

* `Session.Reading` — a property of the parts that read, which sequences keep
* `Session.Writing` — the same for all parts
* `Entity.admits` — data break no rule of an entity

## Main results

* `Session.Reading.find`, … — what the operations that read have in common
* `Session.Writing.run` — what all operations have in common
* `Session.check_apply`, `Session.create_apply`, `Session.createMultiple_cons_of_ok` — what becomes
  of data that are checked, of a row that is added, and of the rows after it

## Design notes

The properties are about actions alone and not about the states in which they start, so a property
that holds under an invariant has to say so itself.
-/

namespace EntityService

open EntityService.Json EntityService.Model EntityService.Query EntityService.Store
open EntityService.Validation

/-! ### Parts that leave the state as it is -/

namespace Action

variable {σ α β : Type}

theorem ofOption_snd (cause : Error) (x : Option α) (s : σ) :
    (ofOption cause x s).2 = s := by
  cases x <;> rfl

/-- What follows may leave the state as it is. -/
theorem bind_snd {first : Action σ α} {next : α → Action σ β} (h : ∀ x s, (next x s).2 = s)
    {s : σ} : ((first >>= next) s).2 = (first s).2 := by
  cases hresult : (first s).1 with
  | error cause => rw [bind_apply_of_error hresult]
  | ok x => rw [bind_apply_of_ok hresult, h]

end Action

/-! ### Properties of operations -/

/-- Data break no rule of an entity. -/
def Model.Entity.admits (e : Entity) (mode : Mode) (data : Record) : Bool :=
  (violation? e data mode).isNone

/-- Data break no rule if they give what is required, break none of the rules of columns, and hold
no null where there may be none. -/
theorem Model.Entity.admits_iff {e : Entity} {mode : Mode} {data : Record} :
    e.admits mode data ↔
      (mode = .create →
        ∀ column ∈ requiredColumns e, (Record.cell data column).isNull = false) ∧
      (∀ r ∈ e.validation, ruleViolation? mode data r.1 r.2 = none) ∧
      ∀ member ∈ data, ∀ c ∈ e.column? member.1, c.nullable = false →
        member.2.isNull = false := by
  have hrules : (e.validation.findSome? fun r => ruleViolation? mode data r.1 r.2) = none ↔
      ∀ r ∈ e.validation, ruleViolation? mode data r.1 r.2 = none := List.findSome?_eq_none_iff
  have hmissing : (if mode = .create then (missingColumn? e data).map Violation.missing else none)
      = none ↔ (mode = .create →
        ∀ column ∈ requiredColumns e, (Record.cell data column).isNull = false) := by
    rw [missingColumn?]
    cases mode <;> simp
  have hnulled : (nulledColumn? e data).map Violation.isNull = none ↔
      ∀ member ∈ data, ∀ c ∈ e.column? member.1, c.nullable = false →
        member.2.isNull = false := by
    rw [Option.map_eq_none_iff, nulledColumn?, Option.map_eq_none_iff, List.find?_eq_none]
    refine forall₂_congr fun member _ => ?_
    cases hcolumn : e.column? member.1 with
    | none => simp [hcolumn]
    | some c => cases hc : c.nullable <;> simp [hcolumn, hc]
  rw [admits, violation?, Option.isNone_iff_eq_none, Option.orElse_eq_none,
    Option.orElse_eq_none, hmissing, hrules, hnulled]

namespace Session

variable {σ α β : Type} [Storage σ]

/-- A property that the parts have which read from the store or stay away from it, and that
sequences keep. -/
structure Reading (P : (α : Type) → Action (Session σ) α → Prop) : Prop where
  pure : ∀ {α : Type} (x : α), P α (Pure.pure x)
  fail : ∀ {α : Type} (cause : Error), P α (Action.fail cause)
  bind : ∀ {α β : Type} {a : Action (Session σ) α} {next : α → Action (Session σ) β},
    P α a → (∀ x, P β (next x)) → P β (a >>= next)
  asks : ∀ {α : Type} (question : Repository → α), P α (asks question)
  take : ∀ {α : Type} (use : Repository → α), P α (take use)
  rows : ∀ (p : Plan) (columns : List String), P (List Value) (onStore (Storage.get p columns))
  page : ∀ (p : Plan) (columns : List String) (perPage number : Nat),
    P (Page Value) (onStore (Storage.paginate p columns perPage number))
  size : ∀ p : Plan, P Nat (onStore (Storage.count p))

/-- A property that all parts have, and that sequences keep. -/
structure Writing (P : (α : Type) → Action (Session σ) α → Prop) : Prop extends Reading P where
  insert : ∀ (e : Entity) (data : Record), P Value (onStore (Storage.insert e data))
  update : ∀ (e : Entity) (id : Value) (data : Record) (touch : Bool),
    P (Option Value) (onStore (Storage.updateByKey e id data touch))
  remove : ∀ p : Plan, P Nat (onStore (Storage.delete p))

variable {P : (α : Type) → Action (Session σ) α → Prop}

namespace Reading

theorem ofOption (h : Reading P) (cause : Error) (x : Option α) :
    P α (Action.ofOption cause x) := by
  cases x with
  | none => exact h.fail cause
  | some x => exact h.pure x

theorem mapValue (h : Reading P) {a : Action (Session σ) α} (ha : P α a) (f : α → β) :
    P β (a.mapValue f) := by
  have heq : a.mapValue f = a >>= fun x => Pure.pure (f x) :=
    funext fun s => (Action.bind_pure_apply a f s).symm
  rw [heq]
  exact h.bind ha fun x => h.pure (f x)

theorem check (h : Reading P) (data : Record) (mode : Mode) : P Unit (check data mode) := by
  refine h.bind (h.asks _) fun e => ?_
  cases violation? e data mode with
  | none => exact h.pure ()
  | some violation => exact h.fail _

theorem firstOf (h : Reading P) (p : Plan) (columns : List String) :
    P (Option Value) (onStore (Storage.first p columns)) :=
  h.mapValue (h.rows (p.add (.take 1)) columns) List.head?

theorem all (h : Reading P) (columns : List String) : P (List Value) (all columns) :=
  h.bind (h.take _) fun plan => h.rows plan columns

theorem get (h : Reading P) (columns : List String) : P (List Value) (get columns) :=
  h.bind (h.take _) fun plan => h.rows plan columns

theorem first (h : Reading P) (columns : List String) : P Value (first columns) := by
  refine h.bind (h.take _) fun plan => ?_
  refine h.bind (h.firstOf plan columns) fun row => ?_
  exact h.bind (h.asks _) fun _ => h.ofOption _ row

theorem find (h : Reading P) (id : Value) (columns : List String) :
    P Value (find id columns) := by
  refine h.bind (h.take _) fun plan => ?_
  refine h.bind (h.firstOf plan columns) fun row => ?_
  exact h.bind (h.asks _) fun _ => h.ofOption _ row

theorem findBy (h : Reading P) (column : String) (value : Value) (columns : List String) :
    P (Option Value) (findBy column value columns) :=
  h.bind (h.take _) fun plan => h.firstOf plan columns

theorem paginate (h : Reading P) (size : Option Nat) (columns : List String) (pageKey : String)
    (page : Option Nat) : P (Page Value) (paginate size columns pageKey page) := by
  refine h.bind (h.take _) fun plan => ?_
  refine h.bind (h.asks _) fun perPage => ?_
  exact h.bind (h.asks _) fun number => h.page plan columns perPage number

theorem search (h : Reading P) : P (Page Value) search := by
  refine h.bind (h.take _) fun plan => ?_
  refine h.bind (h.asks _) fun perPage => ?_
  exact h.bind (h.asks _) fun number => h.page plan [] perPage number

theorem count (h : Reading P) : P Nat count :=
  h.bind (h.take _) fun plan => h.size plan

end Reading

namespace Writing

theorem create (h : Writing P) (data : Record) : P Value (create data) := by
  refine h.bind (h.take _) fun _ => ?_
  refine h.bind (h.check data .create) fun _ => ?_
  exact h.bind (h.asks _) fun e => h.insert e data

theorem createMultiple (h : Writing P) (items : List Record) :
    P (List Value) (createMultiple items) := by
  induction items with
  | nil => exact h.pure []
  | cons data rest ih =>
      refine h.bind (h.create data) fun row => ?_
      exact h.bind ih fun rows => h.pure (row :: rows)

theorem updateById (h : Writing P) (id : Value) (data : Record) (touch : Bool) :
    P Value (updateById id data touch) := by
  refine h.bind (h.take _) fun _ => ?_
  refine h.bind (h.find id []) fun _ => ?_
  refine h.bind (h.check data .update) fun _ => ?_
  refine h.bind (h.asks _) fun e => ?_
  exact h.bind (h.update e id data touch) fun row => h.ofOption _ row

theorem deleteById (h : Writing P) (id : Value) : P Bool (deleteById id) := by
  refine h.bind (h.take _) fun _ => ?_
  refine h.bind (h.find id []) fun _ => ?_
  refine h.bind (h.take _) fun plan => ?_
  exact h.bind (h.remove plan) fun count => h.pure _

theorem deleteMultipleById (h : Writing P) (ids : List Value) :
    P Nat (deleteMultipleById ids) := by
  refine h.bind (h.take _) fun _ => ?_
  split
  · exact h.pure 0
  · exact h.bind (h.asks _) fun plan => h.remove plan

theorem delete (h : Writing P) : P Nat delete := h.bind (h.take _) fun plan => h.remove plan

/-- What all parts have in common, and sequences keep, every operation has. -/
theorem run (h : Writing P) (t : Terminal) : P Answer t.run := by
  cases t with
  | all columns => exact h.mapValue (h.all columns) _
  | get columns => exact h.mapValue (h.get columns) _
  | first columns => exact h.mapValue (h.first columns) _
  | find id columns => exact h.mapValue (h.find id columns) _
  | findBy column value columns => exact h.mapValue (h.findBy column value columns) _
  | create data => exact h.mapValue (h.create data) _
  | createMultiple items => exact h.mapValue (h.createMultiple items) _
  | updateById id data touch => exact h.mapValue (h.updateById id data touch) _
  | deleteById id => exact h.mapValue (h.deleteById id) _
  | deleteMultipleById ids => exact h.mapValue (h.deleteMultipleById ids) _
  | paginate size columns pageKey page =>
      exact h.mapValue (h.paginate size columns pageKey page) _
  | search => exact h.mapValue h.search _
  | count => exact h.mapValue h.count _
  | delete => exact h.mapValue h.delete _

end Writing

/-! ### Data that are checked and added -/

omit [Storage σ] in
theorem onStore_apply (operation : Action σ α) (s : Session σ) :
    onStore operation s = ((operation s.store).1, { s with store := (operation s.store).2 }) := rfl

omit [Storage σ] in
/-- A check does nothing but fail when the data break a rule of the entity. -/
theorem check_apply (data : Record) (mode : Mode) (s : Session σ) :
    check data mode s =
      match violation? s.repository.entity data mode with
      | some violation => (.error (.invalid violation), s)
      | none => (.ok (), s) := by
  change (match violation? s.repository.entity data mode with
    | some violation => Action.fail (.invalid violation)
    | none => pure () : Action (Session σ) Unit) s = _
  cases violation? s.repository.entity data mode <;> rfl

omit [Storage σ] in
/-- What follows a check is done when the data break no rule of the entity. -/
theorem check_bind_apply (data : Record) (mode : Mode) (next : Unit → Action (Session σ) α)
    (s : Session σ) :
    (check data mode >>= next) s =
      match violation? s.repository.entity data mode with
      | some violation => (.error (.invalid violation), s)
      | none => next () s := by
  have hcheck := check_apply data mode s
  cases hviolation : violation? s.repository.entity data mode with
  | some violation =>
      rw [hviolation] at hcheck
      rw [Action.bind_apply_of_error (congrArg Prod.fst hcheck), hcheck]
  | none =>
      rw [hviolation] at hcheck
      rw [Action.bind_apply_of_ok (congrArg Prod.fst hcheck), hcheck]

/-- The session without what is pending. -/
def drained (s : Session σ) : Session σ := { s with repository := s.repository.drained }

/-- A row is added for data that break no rule of the entity, and for no others. -/
theorem create_apply (data : Record) (s : Session σ) :
    create data s =
      match violation? s.repository.entity data .create with
      | some violation => (.error (.invalid violation), s.drained)
      | none => onStore (Storage.insert s.repository.entity data) s.drained :=
  check_bind_apply data .create (fun _ => asks (·.entity) >>= fun e =>
    onStore (Storage.insert e data)) s.drained

/-- No more rows are added after one that is not. -/
theorem createMultiple_cons_of_error {data : Record} {s : Session σ} {cause : Error}
    (h : (create data s).1 = .error cause) (rest : List Record) :
    createMultiple (data :: rest) s = (.error cause, (create data s).2) :=
  Action.bind_apply_of_error h _

theorem createMultiple_cons_of_ok {data : Record} {s : Session σ} {row : Value}
    (h : (create data s).1 = .ok row) (rest : List Record) :
    createMultiple (data :: rest) s =
      (createMultiple rest).mapValue (row :: ·) (create data s).2 := by
  have hstep : createMultiple (data :: rest) s = (create data >>= fun row =>
      createMultiple rest >>= fun rows => pure (row :: rows)) s := rfl
  rw [hstep, Action.bind_apply_of_ok h, Action.bind_pure_apply]

end Session

end EntityService
