import EntityService.Proofs.AnsweredRows
import EntityService.Proofs.FailedRequests
import EntityService.Proofs.StoredRows
import Mathlib.Data.List.Forall2

/-!
# Permissions over runs

What an entity does not allow is never done to its rows, whatever is asked of a service and in
whatever order.

## Main definitions

* `Entity.Evolves` — rows of an entity become other rows by what the entity allows

## Main results

* `Entity.Evolves.trans` — what is allowed may be done repeatedly
* `evolves_after`, `evolves_operate`, `evolves_serve` — what a granted operation does to rows, and
  what any requests do to them
* `rows_answer_of_ne` — a request leaves the rows of other entities as they are
* `permissions_hold_over_runs` — so all permissions hold over all runs

## Design notes

Rows have no identity beyond their place.  So the rows after a run are related to those before it by
saying which of them are left, what each of those has become, and which rows are new: each of the
three parts is empty of change when the entity does not allow it.
-/

namespace EntityService

open EntityService.Config EntityService.Http EntityService.Json EntityService.Model
open EntityService.Store

/-! ### Related lists -/

section Related

variable {α β : Type} {R : α → β → Prop}

/-- What is left of a list comes from what is left of a related list. -/
theorem exists_sublist_of_forall₂ {kept : List α} {changed rest : List β}
    (h : List.Forall₂ R kept changed) (hrest : rest.Sublist changed) :
    ∃ left, left.Sublist kept ∧ List.Forall₂ R left rest ∧ (rest = changed → left = kept) := by
  induction h generalizing rest with
  | nil =>
      obtain rfl := List.sublist_nil.mp hrest
      exact ⟨[], .slnil, .nil, fun _ => rfl⟩
  | @cons a b kept changed hab _ ih =>
      cases hrest with
      | cons _ hskip =>
          obtain ⟨left, hleft, hforall, -⟩ := ih hskip
          refine ⟨left, hleft.cons a, hforall, ?_⟩
          rintro rfl
          -- a list has no longer list in it
          have hlength := hskip.length_le
          simp at hlength
      | cons_cons _ htake =>
          obtain ⟨left, hleft, hforall, heq⟩ := ih htake
          refine ⟨a :: left, hleft.cons_cons a, .cons hab hforall, ?_⟩
          intro hsame
          rw [heq (List.cons.inj hsame).2]

/-- A list that is related to two lists in a row consists of two parts that are related to them. -/
theorem forall₂_append_left {xs ys : List α} {zs : List β} (h : List.Forall₂ R (xs ++ ys) zs) :
    ∃ before after, zs = before ++ after ∧ List.Forall₂ R xs before ∧ List.Forall₂ R ys after :=
  ⟨zs.take xs.length, zs.drop xs.length, (List.take_append_drop _ _).symm,
    (List.forall₂_take_append zs xs ys h.flip).flip,
    (List.forall₂_drop_append zs xs ys h.flip).flip⟩

theorem forall₂_trans {R : α → α → Prop} (hR : ∀ a b c, R a b → R b c → R a c)
    {xs ys zs : List α} (hxy : List.Forall₂ R xs ys) (hyz : List.Forall₂ R ys zs) :
    List.Forall₂ R xs zs := by
  induction hxy generalizing zs with
  | nil => exact hyz
  | cons hab _ ih =>
      obtain ⟨c, rest, hbc, hrest, rfl⟩ := List.forall₂_cons_left_iff.mp hyz
      exact .cons (hR _ _ _ hab hbc) (ih hrest)

end Related

/-! ### Rows that evolve -/

namespace Model.Entity

/-- Rows of an entity become other rows by what the entity allows: some of them are left, each of
these may have changed, and new ones follow them. -/
def Evolves (e : Entity) (before after : List Record) : Prop :=
  ∃ kept changed added : List Record,
    kept.Sublist before ∧ (kept = before ∨ e.allows "delete") ∧
    List.Forall₂ (fun old new => old = new ∨ e.allows "update") kept changed ∧
    after = changed ++ added ∧ (added = [] ∨ e.allows "create" ∨ e.allows "bulk_create")

variable {e : Entity} {before middle after : List Record}

/-- A row may have changed. -/
theorem forall₂_same (e : Entity) (rows : List Record) :
    List.Forall₂ (fun old new => old = new ∨ e.allows "update") rows rows :=
  List.forall₂_same.mpr fun _ _ => .inl rfl

theorem Evolves.refl (e : Entity) (rows : List Record) : e.Evolves rows rows :=
  ⟨rows, rows, [], .refl _, .inl rfl, e.forall₂_same rows, (List.append_nil _).symm, .inl rfl⟩

theorem evolves_of_eq (h : after = before) : e.Evolves before after := by
  rw [h]
  exact .refl e before

/-- New rows that were removed again are as if they had never been there. -/
theorem Evolves.trans (hfirst : e.Evolves before middle) (hsecond : e.Evolves middle after) :
    e.Evolves before after := by
  obtain ⟨kept, changed, added, hkept, hdelete, hchanged, rfl, hcreate⟩ := hfirst
  obtain ⟨left, altered, more, hleft, hdelete', haltered, rfl, hcreate'⟩ := hsecond
  obtain ⟨old, new, rfl, hold, hnew⟩ := List.sublist_append_iff.mp hleft
  obtain ⟨alteredOld, alteredNew, rfl, holdAltered, hnewAltered⟩ := forall₂_append_left haltered
  obtain ⟨origin, horigin, hrelated, hall⟩ := exists_sublist_of_forall₂ hchanged hold
  refine ⟨origin, alteredOld, alteredNew ++ more, horigin.trans hkept, ?_, ?_,
    List.append_assoc .., ?_⟩
  · by_cases hallowed : e.allows "delete"
    · exact .inr hallowed
    · -- nothing was removed in either step, so all that was there before is left
      have hsame := hdelete'.resolve_right hallowed
      have hlength := congrArg List.length hsame
      have holdLength := hold.length_le
      have hnewLength := hnew.length_le
      simp only [List.length_append] at hlength
      have hwhole : old = changed := hold.eq_of_length (by omega)
      exact .inl ((hall hwhole).trans (hdelete.resolve_right hallowed))
  · refine forall₂_trans ?_ hrelated holdAltered
    rintro a b c (rfl | hallowed) (rfl | hallowed')
    · exact .inl rfl
    · exact .inr hallowed'
    · exact .inr hallowed
    · exact .inr hallowed
  · by_cases hallowed : e.allows "create" ∨ e.allows "bulk_create"
    · exact .inr hallowed
    · obtain rfl := hcreate.resolve_right hallowed
      obtain rfl := List.sublist_nil.mp hnew
      obtain rfl := List.forall₂_nil_left_iff.mp hnewAltered
      exact .inl (hcreate'.resolve_right hallowed)

/-- Rows that may be neither changed nor removed stay, and new ones follow them. -/
theorem Evolves.exists_append (h : e.Evolves before after) (hupdate : ¬e.allows "update")
    (hdelete : ¬e.allows "delete") : ∃ added, after = before ++ added := by
  obtain ⟨kept, changed, added, -, hkept, hchanged, rfl, -⟩ := h
  obtain rfl := hkept.resolve_right hdelete
  have hsame : List.Forall₂ Eq kept changed :=
    hchanged.imp fun _ _ hrow => hrow.resolve_right hupdate
  rw [List.forall₂_eq_eq_eq] at hsame
  exact ⟨added, by rw [hsame]⟩

theorem evolves_append (rows : List Record) (row : Record)
    (h : e.allows "create" ∨ e.allows "bulk_create") : e.Evolves rows (rows ++ [row]) :=
  ⟨rows, rows, [row], .refl _, .inl rfl, e.forall₂_same rows, rfl, .inr h⟩

theorem evolves_of_length_eq {rows : List Record} (hlength : before.length = rows.length)
    (h : e.allows "update") : e.Evolves before rows :=
  ⟨before, rows, [], .refl _, .inl rfl,
    List.forall₂_of_length_eq_of_get hlength fun _ _ _ => .inr h,
    (List.append_nil _).symm, .inl rfl⟩

theorem evolves_of_sublist (hsub : after.Sublist before) (h : e.allows "delete") :
    e.Evolves before after :=
  ⟨after, after, [], hsub, .inr h, e.forall₂_same after, (List.append_nil _).symm, .inl rfl⟩

end Model.Entity

/-! ### Operations -/

section Operations

variable {addressed : Option Entity} {e : Entity} {operation : Operation}

/-- A granted operation leaves the rows of entities as they are that are not addressed. -/
theorem rows_after_of_ne (hgranted : Operation.IsGranted addressed operation)
    (hother : ∀ d, addressed = some d → e.id ≠ d.id) (store : Memory) :
    (operation.after store).rows e.id = store.rows e.id := by
  cases operation with
  | insert d data => exact store.insertRow_rows_of_ne d data (hother d hgranted.1)
  | updateByKey d id data touch =>
      exact store.updateRow_rows_of_ne d id data touch (hother d hgranted.1)
  | delete p =>
      refine ((store.record "delete" p).deleteRows_rows_of_ne p (hother _ hgranted.1)).trans ?_
      exact store.record_rows "delete" p e.id
  | get p columns => exact store.record_rows "get" p e.id
  | paginate p columns perPage page => exact store.record_rows "paginate" p e.id
  | count p => exact store.record_rows "count" p e.id
  | ping => rfl

/-- A granted operation does to the rows of the entity that is addressed what this allows. -/
theorem evolves_after (hgranted : Operation.IsGranted (some e) operation) (store : Memory) :
    e.Evolves (store.rows e.id) ((operation.after store).rows e.id) := by
  cases operation with
  | insert d data =>
      obtain ⟨heq, hallowed, -⟩ := hgranted
      obtain rfl := Option.some.inj heq
      change e.Evolves _ ((store.insertRow e data).2.rows e.id)
      rw [store.insertRow_rows_self e data]
      exact Entity.evolves_append _ _ hallowed
  | updateByKey d id data touch =>
      obtain ⟨heq, hallowed, -⟩ := hgranted
      obtain rfl := Option.some.inj heq
      refine Entity.evolves_of_length_eq ?_ hallowed
      change _ = ((store.updateRow e id data touch).2.rows e.id).length
      rw [store.updateRow_rows_self e id data touch, List.length_modify]
  | delete p =>
      obtain ⟨heq, hallowed⟩ := hgranted
      obtain rfl := Option.some.inj heq
      refine Entity.evolves_of_sublist ?_ hallowed
      have hsub := (store.record "delete" p).deleteRows_rows_sublist p p.entity.id
      rwa [store.record_rows] at hsub
  | get p columns => exact Entity.evolves_of_eq (store.record_rows "get" p e.id)
  | paginate p columns perPage page =>
      exact Entity.evolves_of_eq (store.record_rows "paginate" p e.id)
  | count p => exact Entity.evolves_of_eq (store.record_rows "count" p e.id)
  | ping => exact .refl e _

/-- A run of granted operations leaves the rows of entities as they are that are not addressed. -/
theorem rows_operate_of_ne {operations : List Operation}
    (hgranted : ∀ operation ∈ operations, Operation.IsGranted addressed operation)
    (hother : ∀ d, addressed = some d → e.id ≠ d.id) (store : Memory) :
    (operate operations store).rows e.id = store.rows e.id := by
  induction operations generalizing store with
  | nil => rfl
  | cons operation rest ih =>
      obtain ⟨hfirst, hrest⟩ := List.forall_mem_cons.mp hgranted
      exact (ih hrest _).trans (rows_after_of_ne hfirst hother store)

/-- A run of granted operations does to the rows of the entity that is addressed what this
allows. -/
theorem evolves_operate {operations : List Operation}
    (hgranted : ∀ operation ∈ operations, Operation.IsGranted (some e) operation)
    (store : Memory) : e.Evolves (store.rows e.id) ((operate operations store).rows e.id) := by
  induction operations generalizing store with
  | nil => exact .refl e _
  | cons operation rest ih =>
      obtain ⟨hfirst, hrest⟩ := List.forall_mem_cons.mp hgranted
      exact (evolves_after hfirst store).trans (ih hrest _)

end Operations

/-! ### Requests -/

section Requests

variable {service : Service} {e : Entity}

/-- A request leaves the rows of entities as they are that it is not about. -/
theorem rows_answer_of_ne (hm : service.model.IsResolved) (he : e ∈ service.model.entities)
    {r : Request} (hother : r.entity? service.model ≠ some e) (store : Memory) :
    (service.answer r store).2.rows e.id = store.rows e.id := by
  obtain ⟨operations, hgranted, hafter⟩ := service.reaches_granted_answer r store
  rw [hafter]
  refine rows_operate_of_ne hgranted ?_ store
  intro d hd hid
  obtain rfl := hm.eq_of_id_eq he (Request.mem_of_entity? hd) hid
  exact hother hd

/-- A request does to the rows of an entity what this allows. -/
theorem evolves_answer (hm : service.model.IsResolved) (he : e ∈ service.model.entities)
    (r : Request) (store : Memory) :
    e.Evolves (store.rows e.id) ((service.answer r store).2.rows e.id) := by
  by_cases haddressed : r.entity? service.model = some e
  · obtain ⟨operations, hgranted, hafter⟩ := service.reaches_granted_answer r store
    rw [haddressed] at hgranted
    rw [hafter]
    exact evolves_operate hgranted store
  · exact Entity.evolves_of_eq (rows_answer_of_ne hm he haddressed store)

/-- Any requests do to the rows of an entity what this allows. -/
theorem evolves_serve (hm : service.model.IsResolved) (he : e ∈ service.model.entities)
    (requests : List (String × Request)) (store : Memory) :
    e.Evolves (store.rows e.id) ((service.serve requests store).rows e.id) := by
  induction requests generalizing store with
  | nil => exact .refl e _
  | cons request rest ih =>
      obtain ⟨clock, r⟩ := request
      exact (evolves_answer hm he r { store with clock }).trans (ih _)

/-- A request by the method `GET` gives nothing, or rows of the entity that it is about, if these
may be read. -/
theorem givesOnly_answer_of_get {r : Request} (hget : r.method = "GET") (store : Memory) :
    (service.answer r store).1.data? = none ∨
      ∃ d, r.entity? service.model = some d ∧ d.allows "read" ∧
        (service.answer r store).1.GivesOnly (store.Shows d) := by
  rw [answer_of_get hget]
  cases hdata : (service.carryOut (service.orderOf r) store).1.data? with
  | none => exact .inl rfl
  | some data =>
      right
      obtain ⟨command, response, horder, hok, hresponse⟩ := Service.exists_command_of_data? hdata
      rw [entity?_of_orderOf horder, hresponse]
      have hreading := isReading_of_get hget horder
      cases command with
      | list segment params => exact givesOnly_of_listRows hok
      | read segment key params => exact givesOnly_of_readRow hok
      | _ => cases hreading

end Requests

/-- Permissions hold over all runs: whatever is asked of a service, rows are added to an entity,
changed or removed only if it allows this, each request leaves the rows of all entities as they are
but of the one that it is about, and a request by the method `GET` gives only rows of an entity that
may be read. -/
theorem permissions_hold_over_runs {config : Configuration} {service : Service}
    (hmodel : Model.resolve config = .ok service.model) (requests : List (String × Request))
    (store : Memory) :
    let served := service.serve requests store
    (∀ e ∈ service.model.entities, e.Evolves (store.rows e.id) (served.rows e.id)) ∧
      (∀ r : Request, ∀ e ∈ service.model.entities, r.entity? service.model ≠ some e →
        (service.answer r served).2.rows e.id = served.rows e.id) ∧
      ∀ r : Request, r.method = "GET" → (service.answer r served).1.data? = none ∨
        ∃ d, r.entity? service.model = some d ∧ d.allows "read" ∧
          (service.answer r served).1.GivesOnly (served.Shows d) := by
  have hm := Model.isResolved_of_resolve hmodel
  refine ⟨fun e he => evolves_serve hm he requests store, ?_, ?_⟩
  · intro r e he hother
    exact rows_answer_of_ne hm he hother _
  · intro r hget
    exact givesOnly_answer_of_get hget _

/-! ### An archive -/

namespace Archive

/-- A drawer of the archive, with what may be done to the papers in it. -/
def drawer (id : String) (operations : List String) : EntityDeclaration where
  id
  schema := "public"
  table := id
  pathSegment := id
  primaryKey := "id"
  createdAt := "created_at"
  updatedAt := "updated_at"
  columns := []
  filterableFields := []
  activeFlag := none
  defaultSort := none
  aggregates := []
  operations
  sensitiveColumns := []
  validation := []
  pageSize := 25

/-- Records are kept as they are, and letters are put away unread. -/
def drawers : List EntityDeclaration :=
  [drawer "records" ["create", "read"], drawer "letters" ["bulk_create"]]

/-- The records. -/
def records : Entity := Model.entityOf [] (drawer "records" ["create", "read"])

/-- The letters. -/
def letters : Entity := Model.entityOf [] (drawer "letters" ["bulk_create"])

/-- A service for the archive. -/
def service : Service := ⟨⟨[records, letters]⟩, true⟩

/-- One record and one letter. -/
def store : Memory where
  model := service.model
  tables :=
    [("letters", ⟨[[("id", .ofInt 1), ("text", .string "Dear")]], 1⟩),
      ("records", ⟨[[("id", .ofInt 1), ("text", .string "Minutes")]], 1⟩)]
  clock := "2000-01-01T00:00:00+00:00"
  identifiers := fun n => ⟨(Nat.toDigits 16 n).leftpad 32 '0'⟩

/-- A new record, and a change and a removal of the one that is there. -/
def attempts : List (String × Request) :=
  [("2000-01-02T00:00:00+00:00", ⟨"POST", .read "/api/v1/records", some "application/json",
      "\x7b\"text\":\"Accounts\"\x7d"⟩),
    ("2000-01-03T00:00:00+00:00", ⟨"PATCH", .read "/api/v1/records/1", some "application/json",
      "\x7b\"text\":\"\"\x7d"⟩),
    ("2000-01-04T00:00:00+00:00", ⟨"DELETE", .read "/api/v1/records/1", none, ""⟩)]

end Archive

open Archive in
/-- Records are only added, what is asked about records does nothing to the letters, and the letters
cannot be read. -/
theorem permissions_hold_over_runs_archive :
    let served := service.serve attempts store
    let wish : Request := ⟨"DELETE", .read "/api/v1/records/1", none, ""⟩
    let look : Request := ⟨"GET", .read "/api/v1/letters", none, ""⟩
    (∃ added, served.rows "records" = store.rows "records" ++ added) ∧
      (service.answer wish served).2.rows "letters" = served.rows "letters" ∧
      (service.answer look served).1.data? = none := by
  intro served wish look
  have hmodel : Model.resolve ⟨drawers, []⟩ = .ok service.model := rfl
  obtain ⟨hevolves, hother, hget⟩ := permissions_hold_over_runs hmodel attempts store
  refine ⟨?_, ?_, ?_⟩
  · have hrecords : records ∈ service.model.entities := List.mem_cons_self
    exact (hevolves records hrecords).exists_append (by decide) (by decide)
  · have hletters : letters ∈ service.model.entities := List.mem_cons_of_mem _ List.mem_cons_self
    have hwish : wish.entity? service.model = some records := rfl
    refine hother wish letters hletters fun heq => ?_
    have hid := congrArg Entity.id (Option.some.inj (hwish.symm.trans heq))
    revert hid
    decide
  · refine (hget look rfl).resolve_right ?_
    rintro ⟨d, hd, hread, -⟩
    obtain rfl : letters = d := Option.some.inj hd
    cases hread

end EntityService
