import EntityService.Proofs.Sparing
import Mathlib.Data.List.Forall2

/-!
# What failed requests leave behind

A request that reads, and one that fails, leaves the rows of a store in memory and its keys as they
were.  There is one exception: of many rows that are to be added at once, those before the first one
that breaks a rule stay.

## Main definitions

* `Request.Adds`, `Request.AsksForMany` — a request asks for one new row, or for many

## Main results

* `status_lt_of_run` — a command that succeeds is not answered with a failure
* `createRows_outcome` — what a command for many rows comes to
* `failed_request_leaves_store` — what a request leaves behind

## Design notes

Whether a request has failed is read from the status of its response, so the statuses of commands
that succeed have to be told apart from those of errors first.
-/

namespace EntityService

open EntityService.Http EntityService.Json EntityService.Model EntityService.Query
open EntityService.Store EntityService.Validation

namespace Http

open EntityService.Action

/-! ### Success and failure -/

/-- What a command that succeeds is answered with is no failure. -/
theorem status_lt_of_run {σ : Type} [Storage σ] {m : Model} {command : Command} {s : σ}
    {response : Response} (h : (command.run m s).1 = .ok response) : response.status < 400 := by
  have hrun : Gives (fun response => response.status < 400)
      (command.run m : Action σ Response) := by
    have hok : 200 < 400 := by decide
    have hcreated : 201 < 400 := by decide
    cases command with
    | list segment params =>
        refine Gives.bind fun e => ?_
        dsimp only
        split
        · exact Gives.bind fun _ => gives_pure hok
        · exact Gives.bind fun _ => gives_pure hok
    | read segment key params =>
        exact Gives.bind fun _ => Gives.bind fun _ => Gives.bind fun _ => gives_pure hok
    | create segment body =>
        exact Gives.bind fun _ => Gives.bind fun _ => Gives.bind fun _ => gives_pure hcreated
    | createMany segment body =>
        exact Gives.bind fun _ => Gives.bind fun _ => Gives.bind fun _ => gives_pure hcreated
    | update segment key body =>
        exact Gives.bind fun _ => Gives.bind fun _ => Gives.bind fun _ => Gives.bind fun _ =>
          gives_pure hok
    | deleteMany segment body =>
        exact Gives.bind fun _ => Gives.bind fun _ => Gives.bind fun _ => gives_pure hok
    | delete segment key body =>
        refine Gives.bind fun e => ?_
        split
        · exact Gives.bind fun _ => Gives.bind fun _ => gives_pure hok
        · exact Gives.bind fun _ => Gives.bind fun _ => gives_pure (show 204 < 400 by decide)
  exact hrun s response h

/-- That there is no entity for an operation is no fault of the data. -/
theorem status_ne_of_entityFor {σ : Type} {m : Model} {segment operation : String} {s : σ}
    {cause : Error} (h : (entityFor m segment operation s).1 = .error cause) :
    (statusOf cause).1 ≠ 422 := by
  rw [entityFor_apply] at h
  split at h
  · obtain rfl := Except.error.inj h
    simp [statusOf]
  · split at h
    · cases h
    · obtain rfl := Except.error.inj h
      simp [statusOf]

/-! ### Many rows at once -/

theorem mapM_readObject_map (items : List Record) :
    (items.map Value.object).mapM readObject = .ok items := by
  induction items with
  | nil => rfl
  | cons data rest ih =>
      rw [List.map_cons, List.mapM_cons, ih]
      rfl

theorem eq_map_of_mapM_readObject {values : List Value} {items : List Record}
    (h : values.mapM readObject = .ok items) : values = items.map .object := by
  induction values generalizing items with
  | nil =>
      cases h
      rfl
  | cons v values ih =>
      rw [List.mapM_cons] at h
      cases v with
      | object data =>
          cases hrest : values.mapM readObject with
          | error fault =>
              rw [hrest] at h
              cases h
          | ok rest =>
              rw [hrest] at h
              cases h
              rw [ih hrest, List.map_cons]
      | _ => cases h

/-- A body lists objects, and not too many of them. -/
theorem readObjects_eq_ok_iff {body : Value} {items : List Record} :
    readObjects body = .ok items ↔
      body = .array (items.map .object) ∧ items.length ≤ maxBulk := by
  constructor
  · intro h
    cases body with
    | array values =>
        unfold readObjects at h
        dsimp only at h
        split at h
        · cases h
        · next hshort =>
            obtain rfl := eq_map_of_mapM_readObject h
            rw [List.length_map] at hshort
            exact ⟨rfl, Nat.le_of_not_lt hshort⟩
    | _ => cases h
  · rintro ⟨rfl, hlength⟩
    have hshort : ¬maxBulk < (items.map Value.object).length := by
      rw [List.length_map]
      exact Nat.not_lt_of_le hlength
    show (if maxBulk < (items.map Value.object).length then _ else _) = _
    rw [if_neg hshort, mapM_readObject_map]

/-- A command for many rows fails before it adds any of them, for another reason than the data, or
it adds those before the first one that breaks a rule. -/
theorem createRows_outcome (m : Model) (segment : String) (body : Value) (store : Memory) :
    let result := createRows m segment body store
    (result.2 = store ∧ ∃ cause, result.1 = .error cause ∧ (statusOf cause).1 ≠ 422) ∨
      ∃ e items, m.entityAt? segment = some e ∧ readObjects body = .ok items ∧
        result.2 = store.insertAll e (items.takeWhile (e.admits .create)) ∧
        match items.dropWhile (e.admits .create) with
        | [] => ∃ response, result.1 = .ok response
        | failing :: _ => ∃ violation, violation? e failing .create = some violation ∧
            result.1 = .error (.invalid violation) := by
  intro result
  cases hentity : (entityFor m segment "bulk_create" store).1 with
  | error cause =>
      left
      have hresult : result = (.error cause, store) := by
        show createRows m segment body store = _
        rw [createRows, bind_apply_of_error hentity, entityFor_store]
      rw [hresult]
      exact ⟨rfl, cause, rfl, status_ne_of_entityFor hentity⟩
  | ok e =>
      obtain ⟨he, hallowed⟩ := entityFor_eq_ok_iff.mp hentity
      cases hitems : readObjects body with
      | error fault =>
          left
          have hresult : result = (.error (.badRequest fault), store) := by
            show createRows m segment body store = _
            rw [createRows, bind_apply_of_ok hentity, entityFor_store, hitems]
            rfl
          rw [hresult]
          exact ⟨rfl, _, rfl, by simp [statusOf]⟩
      | ok items =>
          right
          obtain ⟨hstore, houtcome⟩ := createMultiple_rows items
            (s := ⟨Repository.of m e, store⟩) (e := e) rfl
          have hresult : result = (inSession (Repository.of m e)
              (Session.createMultiple items)).mapValue
                (fun rows => .many 201 (rows.map (shownRow e))) store :=
            createRows_apply he hallowed hitems store
          refine ⟨e, items, he, rfl, ?_, ?_⟩
          · rw [hresult]
            exact hstore
          · rw [hresult, mapValue_fst, inSession_apply]
            cases hleft : items.dropWhile (e.admits .create) with
            | nil =>
                rw [hleft] at houtcome
                obtain ⟨rows, hrows⟩ := houtcome
                exact ⟨_, by rw [hrows]; rfl⟩
            | cons failing rest =>
                rw [hleft] at houtcome
                obtain ⟨violation, hviolation, herror⟩ := houtcome
                exact ⟨violation, hviolation, by rw [herror]; rfl⟩

/-! ## Requests -/

/-- A request asks for a new row of an entity with data. -/
def Request.Adds (r : Request) (m : Model) (e : Entity) (data : Record) : Prop :=
  r.method = "POST" ∧ r.LeadsToRows m e ∧ r.bodyValue = .ok (.object data)

/-- A request asks for many new rows of an entity. -/
def Request.AsksForMany (r : Request) (m : Model) (e : Entity) : Prop :=
  r.method = "POST" ∧ r.LeadsToBulk m e

/-- A new row is added for data that break no rule. -/
theorem answer_of_adds {service : Service} {e : Entity} {data : Record} {r : Request}
    (h : r.Adds service.model e data) (hcreate : e.allows "create")
    (hadmits : e.admits .create data) (store : Memory) :
    (service.answer r store).2 = (store.insertRow e data).2 := by
  obtain ⟨hpost, ⟨segment, hroute, he⟩, hbody⟩ := h
  have hhead : r.method ≠ "HEAD" := by
    rw [hpost]
    decide
  have hnone : violation? (Repository.of service.model e).entity data .create = none :=
    Option.isNone_iff_eq_none.mp hadmits
  rw [answer_of_ne_head hhead, orderOf_of_post hpost hroute, hbody]
  show (service.carryOut (.entity (.create segment (.object data))) store).2 = _
  rw [carryOut_entity_snd, Command.run, createRow_apply he hcreate]
  show (inSession (Repository.of service.model e) (Session.create data) store).2 = _
  rw [inSession_create, hnone]
  rfl

/-- Requests for new rows add them one after the other. -/
theorem foldl_answer_of_adds {service : Service} {e : Entity} {items : List Record}
    {posts : List Request} (hposts : List.Forall₂ (·.Adds service.model e ·) posts items)
    (hcreate : e.allows "create") (hadmits : ∀ data ∈ items, e.admits .create data)
    (store : Memory) :
    posts.foldl (fun s post => (service.answer post s).2) store = store.insertAll e items := by
  induction hposts generalizing store with
  | nil => rfl
  | cons hpost _ ih =>
      obtain ⟨hfirst, hrest⟩ := List.forall_mem_cons.mp hadmits
      rw [List.foldl_cons, answer_of_adds hpost hcreate hfirst, ih hrest, Memory.insertAll_cons]

/-- What is asked of an entity by the method `GET` only looks at rows. -/
theorem isReading_of_get {r : Request} {service : Service} {command : Command}
    (hget : r.method = "GET") (h : service.orderOf r = .entity command) : command.isReading := by
  obtain ⟨route, -, hmethod, horder⟩ := exists_route_of_orderOf h
  cases route with
  | rows segment =>
      simp only [Route.order, hget] at horder
      cases horder
      rfl
  | row segment key =>
      simp only [Route.order, hget] at horder
      cases horder
      rfl
  | bulk segment =>
      rw [hget] at hmethod
      cases hmethod
  | _ => cases horder

/-- Many rows are added for no other requests than those that ask for them. -/
theorem of_orderOf_createMany {r : Request} {service : Service} {segment : String} {body : Value}
    (h : service.orderOf r = .entity (.createMany segment body)) :
    r.method = "POST" ∧
      (Route.of? r.target.segments).bind Route.decoded? = some (.bulk segment) := by
  obtain ⟨route, hroute, hmethod, horder⟩ := exists_route_of_orderOf h
  cases route with
  | bulk other =>
      have hpost : r.method = "POST" := by simpa [Route.methods] using hmethod
      change withBody r.bodyValue (.createMany other) = _ at horder
      cases hbody : r.bodyValue with
      | error cause =>
          rw [hbody] at horder
          cases horder
      | ok v =>
          rw [hbody] at horder
          cases horder
          exact ⟨hpost, hroute⟩
  | rows other =>
      unfold Route.order at horder
      dsimp only at horder
      split at horder
      · cases hbody : r.bodyValue <;> rw [hbody] at horder <;> cases horder
      · cases hbody : r.bodyText <;> rw [hbody] at horder <;> cases horder
      · cases horder
  | row other key =>
      unfold Route.order at horder
      dsimp only at horder
      split at horder
      · cases hbody : r.bodyValue <;> rw [hbody] at horder <;> cases horder
      · cases hbody : r.bodyText <;> rw [hbody] at horder <;> cases horder
      · cases horder
  | _ => cases horder

/-- To look at rows by the method `GET` or `HEAD` changes nothing. -/
theorem alike_answer_of_reading {r : Request} (h : r.method = "GET" ∨ r.method = "HEAD")
    (service : Service) (store : Memory) : (service.answer r store).2.Alike store := by
  have hget {r : Request} (h : r.method = "GET") :
      (service.carryOut (service.orderOf r) store).2.Alike store := by
    cases horder : service.orderOf r with
    | entity command =>
        rw [carryOut_entity_snd]
        exact reads_run service.model (isReading_of_get h horder) store
    | _ => exact Memory.Alike.refl store
  rcases h with h | h
  · rw [answer_of_get h]
    exact hget h
  · rw [Service.answer, if_pos h]
    exact hget rfl

/-- What a request for many rows leaves behind, by the body of the request. -/
theorem answer_of_asksForMany {service : Service} {e : Entity} {r : Request}
    (h : r.AsksForMany service.model e) (store : Memory) :
    let result := service.answer r store
    (result.2 = store ∧ result.1.status ≠ 422) ∨
      ∃ items : List Record,
        r.bodyValue = .ok (.array (items.map .object)) ∧ items.length ≤ maxBulk ∧
        result.2 = store.insertAll e (items.takeWhile (e.admits .create)) ∧
        (result.1.status = 422 ↔ items.dropWhile (e.admits .create) ≠ []) := by
  intro result
  obtain ⟨hpost, segment, hroute, he⟩ := h
  have hresult : result = service.carryOut (withBody r.bodyValue (.createMany segment)) store := by
    show service.answer r store = _
    rw [answer_of_ne_head (by rw [hpost]; decide), orderOf_of_bulk hpost hroute]
  cases hbody : r.bodyValue with
  | error cause =>
      left
      rw [hbody] at hresult
      rw [hresult]
      exact ⟨rfl, by cases cause <;> simp [withBody, Service.carryOut, Rejection.response]⟩
  | ok body =>
      rw [hbody] at hresult
      change result = service.carryOut (.entity (.createMany segment body)) store at hresult
      have hafter : result.2 = (createRows service.model segment body store).2 := by
        rw [hresult, carryOut_entity_snd]
        rfl
      have hanswered {response : Response}
          (h : (createRows service.model segment body store).1 = .ok response) :
          result.1 = response := by
        have hrun : ((Command.createMany segment body).run service.model store).1 =
            .ok response := h
        rw [hresult, carryOut_entity_fst, hrun]
      have hfailed {cause : Error}
          (h : (createRows service.model segment body store).1 = .error cause) :
          result.1 = errorResponse cause := by
        have hrun : ((Command.createMany segment body).run service.model store).1 =
            .error cause := h
        rw [hresult, carryOut_entity_fst, hrun]
      rcases createRows_outcome service.model segment body store with
        ⟨hstore, cause, hcause, hstatus⟩ | ⟨d, items, hd, hitems, hstore, houtcome⟩
      · left
        rw [hfailed hcause]
        exact ⟨hafter.trans hstore, hstatus⟩
      · right
        obtain rfl : e = d := Option.some.inj (he.symm.trans hd)
        obtain ⟨rfl, hlength⟩ := readObjects_eq_ok_iff.mp hitems
        refine ⟨items, rfl, hlength, hafter.trans hstore, ?_⟩
        cases hleft : items.dropWhile (e.admits .create) with
        | nil =>
            rw [hleft] at houtcome
            obtain ⟨response, hok⟩ := houtcome
            have hrun : ((Command.createMany segment (.array (items.map .object))).run service.model
                store).1 = .ok response := hok
            have hlt := status_lt_of_run hrun
            rw [hanswered hok]
            simp only [ne_eq, not_true_eq_false, iff_false]
            omega
        | cons failing rest =>
            rw [hleft] at houtcome
            obtain ⟨violation, -, herror⟩ := houtcome
            rw [hfailed herror]
            exact ⟨fun _ => List.cons_ne_nil _ _, fun _ => rfl⟩

/-- A request that fails changes nothing, unless it asks for many rows and the data of one of them
break a rule. -/
theorem alike_answer_of_failure {service : Service} {r : Request} {store : Memory}
    (hstatus : 400 ≤ (service.answer r store).1.status)
    (hbulk : ¬((∃ e, r.AsksForMany service.model e) ∧ (service.answer r store).1.status = 422)) :
    (service.answer r store).2.Alike store := by
  by_cases hhead : r.method = "HEAD"
  · exact alike_answer_of_reading (.inr hhead) service store
  · rw [answer_of_ne_head hhead] at hstatus hbulk ⊢
    cases horder : service.orderOf r with
    | entity command =>
        rw [horder, carryOut_entity_fst] at hstatus hbulk
        rw [carryOut_entity_snd]
        cases hresult : (command.run service.model store).1 with
        | ok response =>
            -- a command that succeeds is not answered with a failure
            rw [hresult] at hstatus
            exact absurd (status_lt_of_run hresult) (Nat.not_lt_of_le hstatus)
        | error cause =>
            rw [hresult] at hbulk
            cases command with
            | createMany segment body =>
                obtain ⟨hpost, hroute⟩ := of_orderOf_createMany horder
                rcases createRows_outcome service.model segment body store with
                  ⟨hstore, -⟩ | ⟨e, items, he, -, -, houtcome⟩
                · rw [Command.run, hstore]
                  exact Memory.Alike.refl store
                · -- the data of a row break a rule, so this is the exception
                  have hmany : r.AsksForMany service.model e := ⟨hpost, segment, hroute, he⟩
                  change (createRows service.model segment body store).1 = _ at hresult
                  split at houtcome
                  · obtain ⟨response, hok⟩ := houtcome
                    rw [hok] at hresult
                    cases hresult
                  · obtain ⟨violation, -, herror⟩ := houtcome
                    rw [herror] at hresult
                    cases hresult
                    exact absurd ⟨⟨e, hmany⟩, rfl⟩ hbulk
            | _ => exact spares_run service.model (by nofun) store cause hresult
    | _ => exact Memory.Alike.refl store

end Http

/-- A request that reads, and one that is answered with a failure, leaves all rows and last keys of
a store as they were, with one exception.  A request for many rows is answered with the status 422
only if its body is a list of at most as many objects as may be added at once, one of which breaks a
rule for new rows; then those before the first such object have been added and nothing else has
changed, just as requests for each of them would have added them.  A body that is no such list adds
nothing. -/
theorem failed_request_leaves_store (service : Service) (r : Request) (store : Memory) :
    let response := (service.answer r store).1
    let after := (service.answer r store).2
    (r.method = "GET" ∨ r.method = "HEAD" ∨ 400 ≤ response.status →
      ¬((∃ e, r.AsksForMany service.model e) ∧ response.status = 422) → after.Alike store) ∧
    ∀ e, r.AsksForMany service.model e →
      (response.status = 422 → ∃ added failing rest,
        r.bodyValue = .ok (.array ((added ++ failing :: rest).map .object)) ∧
        (added ++ failing :: rest).length ≤ maxBulk ∧
        (∀ data ∈ added, e.admits .create data) ∧ ¬e.admits .create failing ∧
        after = store.insertAll e added ∧
        ∀ posts, List.Forall₂ (·.Adds service.model e ·) posts added → e.allows "create" →
          after = posts.foldl (fun s post => (service.answer post s).2) store) ∧
      ((¬∃ items : List Record, r.bodyValue = .ok (.array (items.map .object)) ∧
        items.length ≤ maxBulk) → after = store) := by
  intro response after
  refine ⟨fun hfails hbulk => ?_, fun e hmany => ⟨fun hstatus => ?_, fun hbody => ?_⟩⟩
  · rcases hfails with hget | hhead | hstatus
    · exact alike_answer_of_reading (.inl hget) service store
    · exact alike_answer_of_reading (.inr hhead) service store
    · exact alike_answer_of_failure hstatus hbulk
  · rcases answer_of_asksForMany hmany store with
      ⟨-, hne⟩ | ⟨items, hbody, hlength, hstore, hiff⟩
    · exact absurd hstatus hne
    · have hleft := hiff.mp hstatus
      obtain ⟨failing, rest, hdrop⟩ := List.exists_cons_of_ne_nil hleft
      have hsplit : items.takeWhile (e.admits .create) ++ failing :: rest = items := by
        rw [← hdrop, List.takeWhile_append_dropWhile]
      have hfailing : ¬e.admits .create failing := by
        have hhead := List.head_dropWhile_not (e.admits .create) hleft
        simpa [hdrop] using hhead
      have hadded : ∀ data ∈ items.takeWhile (e.admits .create), e.admits .create data :=
        List.all_eq_true.mp List.all_takeWhile
      refine ⟨items.takeWhile (e.admits .create), failing, rest, ?_⟩
      rw [hsplit]
      refine ⟨hbody, hlength, hadded, hfailing, hstore, ?_⟩
      intro posts hposts hcreate
      exact hstore.trans (foldl_answer_of_adds hposts hcreate hadded store).symm
  · rcases answer_of_asksForMany hmany store with ⟨hstore, -⟩ | ⟨items, hitems, hlength, -⟩
    · exact hstore
    · exact absurd ⟨items, hitems, hlength⟩ hbody

/-! ### A guestbook -/

namespace Guestbook

/-- Entries with the name of a guest, which has to be given. -/
def entries : Entity where
  id := "entries"
  schema := "public"
  table := "entries"
  pathSegment := "entries"
  primaryKey := "id"
  keyType := .bigInt
  createdAt := "created_at"
  updatedAt := "updated_at"
  columns := [⟨"id", false, true, "bigint", none⟩, ⟨"name", false, false, "text", none⟩]
  filterable := .of [] "id" "created_at" "updated_at"
  activeFlag := none
  defaultSort := ⟨"id", "asc"⟩
  relations := []
  aggregates := []
  operations := ["bulk_create", "create", "read"]
  sensitive := []
  validation := []
  pageSize := 25

/-- A service for entries. -/
def service : Service := ⟨⟨[entries]⟩, true⟩

/-- A guestbook without entries. -/
def empty : Memory where
  model := service.model
  clock := "2000-01-01T00:00:00+00:00"
  identifiers := fun n => ⟨(Nat.toDigits 16 n).leftpad 32 '0'⟩

/-- Three entries at once, the second of which has no name. -/
def threeEntries : Request :=
  ⟨"POST", .read "/api/v1/entries/bulk", some "application/json",
    "[\x7b\"name\":\"North\"\x7d,\x7b\x7d,\x7b\"name\":\"South\"\x7d]"⟩

end Guestbook

open Guestbook in
/-- Of three entries of which the second has no name, the first one stays. -/
theorem failed_request_leaves_store_guestbook :
    (service.answer threeEntries empty).1.status = 422 ∧
      (∃ added failing rest,
        threeEntries.bodyValue = .ok (.array ((added ++ failing :: rest).map .object)) ∧
        ¬entries.admits .create failing ∧
        (service.answer threeEntries empty).2 = empty.insertAll entries added) ∧
      ((service.answer threeEntries empty).2.rows "entries").map
        (fun row => (Record.cell row "name").plainText) = ["North"] := by
  have hstatus : (service.answer threeEntries empty).1.status = 422 := by decide +kernel
  have hmany : threeEntries.AsksForMany service.model entries :=
    ⟨rfl, "entries", by decide, rfl⟩
  obtain ⟨added, failing, rest, hbody, -, -, hfailing, hstore, -⟩ :=
    ((failed_request_leaves_store service threeEntries empty).2 entries hmany).1 hstatus
  exact ⟨hstatus, ⟨added, failing, rest, hbody, hfailing, hstore⟩, by decide +kernel⟩

end EntityService
