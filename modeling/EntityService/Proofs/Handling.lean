import EntityService.Http.Service
import EntityService.Proofs.Composition

/-!
# What commands come to

The equations of the commands that read, add, change and remove rows: what they do once the entity
has been found and the key or the body has been read.

## Main definitions

* `Request.entity?` — the entity that a request is about
* `Request.LeadsToRows`, `Request.LeadsToRow`, `Request.LeadsToBulk` — a request leads to the rows
  of an entity, to one of them, or to many new ones

## Main results

* `ofRequest_get` — what a request by the method `GET` asks for
* `entityFor_apply` — the entity of a command, or the reason why there is none
* `inSession_all`, `inSession_search`, `inSession_find`, `inSession_create` — what an operation on a
  repository of its own asks of the store
* `listRows_apply`, `readRow_apply`, `createRow_apply`, `createRows_apply`, `updateRow_apply`,
  `deleteRow_apply` — what a command does for an entity that allows it
* `orderOf_of_route`, `exists_route_of_orderOf` — what is asked of an entity is asked by a method of
  what the path points to
* `entity?_of_orderOf` — and of the entity that the request is about
-/

namespace EntityService.Http

open EntityService.Json EntityService.Model EntityService.Query EntityService.Store
open EntityService.Validation

variable {σ α β : Type}

/-! ### The entity of a request -/

/-- The path segment of the entity that a route leads to. -/
def Route.segment? : Route → Option String
  | rows segment => some segment
  | bulk segment => some segment
  | row segment _ => some segment
  | _ => none

/-- The path segment of the entity that a command is about. -/
def Command.segment : Command → String
  | list segment _ => segment
  | read segment _ _ => segment
  | create segment _ => segment
  | createMany segment _ => segment
  | update segment _ _ => segment
  | deleteMany segment _ => segment
  | delete segment _ _ => segment

/-- The path segment of the entity that a request is about. -/
def Request.segment? (r : Request) : Option String :=
  ((Route.of? r.target.segments).bind Route.decoded?).bind Route.segment?

/-- The entity that a request is about. -/
def Request.entity? (r : Request) (m : Model) : Option Entity := r.segment?.bind m.entityAt?

theorem Request.mem_of_entity? {r : Request} {m : Model} {e : Entity}
    (h : r.entity? m = some e) : e ∈ m.entities := by
  obtain ⟨segment, -, hsegment⟩ := Option.bind_eq_some_iff.mp h
  exact List.mem_of_find?_eq_some hsegment

/-- A request leads to the rows of an entity. -/
def Request.LeadsToRows (r : Request) (m : Model) (e : Entity) : Prop :=
  ∃ segment, (Route.of? r.target.segments).bind Route.decoded? = some (.rows segment) ∧
    m.entityAt? segment = some e

/-- A request leads to the row of an entity with a key. -/
def Request.LeadsToRow (r : Request) (m : Model) (e : Entity) (key : String) : Prop :=
  ∃ segment, (Route.of? r.target.segments).bind Route.decoded? = some (.row segment key) ∧
    m.entityAt? segment = some e

/-- A request leads to many new rows of an entity. -/
def Request.LeadsToBulk (r : Request) (m : Model) (e : Entity) : Prop :=
  ∃ segment, (Route.of? r.target.segments).bind Route.decoded? = some (.bulk segment) ∧
    m.entityAt? segment = some e

/-- A request by the method `GET` asks for the rows of an entity, for one of them, or for nothing of
an entity. -/
theorem ofRequest_get {r : Request} (h : r.method = "GET") :
    (∃ segment, r.segment? = some segment ∧
      Order.ofRequest r = .entity (.list segment r.params)) ∨
    (∃ segment key, r.segment? = some segment ∧
      Order.ofRequest r = .entity (.read segment key r.params)) ∨
    ∀ command, Order.ofRequest r ≠ .entity command := by
  unfold Order.ofRequest Request.segment?
  cases Route.of? r.target.segments with
  | none => exact .inr (.inr nofun)
  | some route =>
      cases route with
      | rows raw =>
          simp only [Route.methods, h, Route.decoded?, Option.bind_some]
          -- a segment that is no text is refused before anything is asked
          cases segmentText? raw with
          | none => exact .inr (.inr nofun)
          | some segment =>
              left
              exact ⟨segment, rfl, by simp [Route.order, h]⟩
      | row raw rawKey =>
          simp only [Route.methods, h, Route.decoded?, Option.bind_some]
          cases segmentText? raw with
          | none => exact .inr (.inr nofun)
          | some segment =>
              cases segmentText? rawKey with
              | none => exact .inr (.inr nofun)
              | some key =>
                  right; left
                  exact ⟨segment, key, rfl, by simp [Route.order, h]⟩
      | bulk raw =>
          -- there is no request for many new rows by this method
          right; right
          simp [Route.methods, h]
      | health => exact .inr (.inr (by simp [Route.methods, h, Route.decoded?, Route.order]))
      | ready => exact .inr (.inr (by simp [Route.methods, h, Route.decoded?, Route.order]))
      | version => exact .inr (.inr (by simp [Route.methods, h, Route.decoded?, Route.order]))

/-- The entity with a path segment, if it allows the operation; the store is not looked at. -/
theorem entityFor_apply (m : Model) (segment operation : String) (s : σ) :
    entityFor m segment operation s =
      match m.entityAt? segment with
      | none => (.error (.notFound (.segment segment)), s)
      | some e =>
        if e.allows operation then (.ok e, s)
        else (.error (.badRequest (.forbidden operation e.pathSegment)), s) := by
  unfold entityFor
  cases h : m.entityAt? segment with
  | none => rfl
  | some e =>
      change (if e.allows operation then Pure.pure e
        else Action.fail (.badRequest (.forbidden operation e.pathSegment)) : Action σ Entity) s =
        if e.allows operation then (.ok e, s)
        else (.error (.badRequest (.forbidden operation e.pathSegment)), s)
      split <;> rfl

/-- An entity is found exactly when there is one with the path segment that allows the operation. -/
theorem entityFor_eq_ok_iff {m : Model} {segment operation : String} {s : σ} {e : Entity} :
    (entityFor m segment operation s).1 = .ok e ↔
      m.entityAt? segment = some e ∧ e.allows operation := by
  rw [entityFor_apply]
  cases h : m.entityAt? segment with
  | none => simp
  | some d =>
      by_cases hallowed : d.allows operation
      · simp only [hallowed, if_true, Except.ok.injEq, Option.some.injEq]
        constructor
        · rintro rfl
          exact ⟨rfl, hallowed⟩
        · exact And.left
      · simp only [hallowed, Bool.false_eq_true, if_false, reduceCtorEq, Option.some.injEq,
          false_iff, not_and]
        rintro rfl
        exact hallowed

/-- Whether the entity is found does not depend on the store. -/
theorem entityFor_fst (m : Model) (segment operation : String) (s t : σ) :
    (entityFor m segment operation s).1 = (entityFor m segment operation t).1 := by
  rw [entityFor_apply, entityFor_apply]
  split
  · rfl
  · split <;> rfl

theorem entityFor_store (m : Model) (segment operation : String) (s : σ) :
    (entityFor m segment operation s).2 = s := by
  rw [entityFor_apply]
  split
  · rfl
  · split <;> rfl

/-! ### Operations on a repository of their own -/

theorem inSession_apply (r : Repository) (operation : Action (Session σ) α) (s : σ) :
    inSession r operation s = ((operation ⟨r, s⟩).1, (operation ⟨r, s⟩).2.store) := rfl

theorem inSession_take_bind (r : Repository) (use : Repository → α)
    (next : α → Action (Session σ) β) :
    inSession r (Session.take use >>= next) = inSession r.drained (next (use r)) := rfl

theorem inSession_asks_bind (r : Repository) (question : Repository → α)
    (next : α → Action (Session σ) β) :
    inSession r (Session.asks question >>= next) = inSession r (next (question r)) := rfl

theorem inSession_ofOption (r : Repository) (cause : Error) (x : Option α) :
    (inSession r (Action.ofOption cause x) : Action σ α) = Action.ofOption cause x := by
  cases x <;> rfl

theorem inSession_onStore_bind (r : Repository) (operation : Action σ α)
    (next : α → Action (Session σ) β) :
    inSession r (Session.onStore operation >>= next) =
      operation >>= fun x => inSession r (next x) := by
  funext s
  have honStore : (Session.onStore operation ⟨r, s⟩).1 = (operation s).1 := rfl
  rw [inSession_apply]
  cases hresult : (operation s).1 with
  | error cause =>
      rw [Action.bind_apply_of_error hresult, Action.bind_apply_of_error (honStore.trans hresult)]
      rfl
  | ok x =>
      rw [Action.bind_apply_of_ok hresult, Action.bind_apply_of_ok (honStore.trans hresult)]
      rfl

variable [Storage σ]

/-! ### Operations that read -/

/-- On a repository of which nothing has been asked, a list and a page have the same plan. -/
theorem requestPlan_withParams (m : Model) (e : Entity) (params : Params) :
    ((Repository.of m e).withParams params).requestPlan =
      ((Repository.of m e).withParams params).searchPlan := rfl

theorem inSession_all (r : Repository) (columns : List String) :
    (inSession r (Session.all columns) : Action σ (List Value)) =
      Storage.get r.requestPlan columns := rfl

theorem inSession_search (r : Repository) :
    (inSession r Session.search : Action σ (Page Value)) =
      Storage.paginate r.searchPlan [] (r.pageSizeFor (r.numberParam? "limit"))
        (Repository.pageNumberFor (r.numberParam? "page")) := rfl

theorem inSession_find (r : Repository) (id : Value) (columns : List String) :
    (inSession r (Session.find id columns) : Action σ Value) =
      Storage.first (r.keyPlan id) columns >>=
        Action.ofOption (.notFound (.row r.entity.id id)) := by
  simp only [Session.find, inSession_take_bind, inSession_onStore_bind, inSession_asks_bind,
    inSession_ofOption]
  rfl

/-! ### Operations that add rows -/

/-- A row is added for data that break no rule of the entity, and nothing is done for others. -/
theorem inSession_create (r : Repository) (data : Record) (s : σ) :
    inSession r (Session.create data) s =
      match violation? r.entity data .create with
      | some violation => (.error (.invalid violation), s)
      | none => Storage.insert r.entity data s := by
  have hentity : (⟨r, s⟩ : Session σ).repository.entity = r.entity := rfl
  rw [inSession_apply, Session.create_apply, hentity]
  cases violation? r.entity data .create <;> rfl

/-! ### Commands that read -/

/-- A list is given page by page or as a whole, and its rows without what is never shown. -/
theorem listRows_apply {m : Model} {segment : String} {e : Entity}
    (he : m.entityAt? segment = some e) (hread : e.allows "read") (params : Params) (s : σ) :
    listRows m segment params s =
      if wantsPages params then
        (inSession ((Repository.of m e).withParams params) Session.search).mapValue
          (fun page => .page (page.mapRows (shownRow e))) s
      else
        (inSession ((Repository.of m e).withParams params) (Session.all [])).mapValue
          (fun rows => .many 200 (rows.map (shownRow e))) s := by
  have hok : (entityFor m segment "read" s).1 = .ok e := entityFor_eq_ok_iff.mpr ⟨he, hread⟩
  rw [listRows, Action.bind_apply_of_ok hok, entityFor_store]
  split
  · exact Action.bind_pure_apply _ _ s
  · exact Action.bind_pure_apply _ _ s

/-- A row is looked up by its key, and given without what is never shown. -/
theorem readRow_apply {m : Model} {segment key : String} {e : Entity} {id : Value}
    (he : m.entityAt? segment = some e) (hread : e.allows "read")
    (hkey : readKey e.keyType key = .ok id) (params : Params) (s : σ) :
    readRow m segment key params s =
      (inSession ((Repository.of m e).withParams params).loadRequested
        (Session.find id [])).mapValue (fun row => .one 200 (shownRow e row)) s := by
  have hok : (entityFor m segment "read" s).1 = .ok e := entityFor_eq_ok_iff.mpr ⟨he, hread⟩
  have haccepted : (accepted (readKey e.keyType key) s).1 = .ok id := by
    rw [hkey]
    rfl
  have hstore : (accepted (readKey e.keyType key) s).2 = s := by
    rw [hkey]
    rfl
  rw [readRow, Action.bind_apply_of_ok hok, entityFor_store, Action.bind_apply_of_ok haccepted,
    hstore]
  exact Action.bind_pure_apply _ _ s

/-! ### Commands that add rows -/

/-- A row is added for the object that a body is. -/
theorem createRow_apply {m : Model} {segment : String} {e : Entity}
    (he : m.entityAt? segment = some e) (hcreate : e.allows "create") (data : Record) (s : σ) :
    createRow m segment (.object data) s =
      (inSession (Repository.of m e) (Session.create data)).mapValue
        (fun row => .one 201 (shownRow e row)) s := by
  have hok : (entityFor m segment "create" s).1 = .ok e := entityFor_eq_ok_iff.mpr ⟨he, hcreate⟩
  rw [createRow, Action.bind_apply_of_ok hok, entityFor_store]
  exact Action.bind_pure_apply _ _ s

/-- Rows are added one after the other for the objects that a body lists. -/
theorem createRows_apply {m : Model} {segment : String} {e : Entity} {body : Value}
    {items : List Record} (he : m.entityAt? segment = some e) (hcreate : e.allows "bulk_create")
    (hitems : readObjects body = .ok items) (s : σ) :
    createRows m segment body s =
      (inSession (Repository.of m e) (Session.createMultiple items)).mapValue
        (fun rows => .many 201 (rows.map (shownRow e))) s := by
  have hok : (entityFor m segment "bulk_create" s).1 = .ok e :=
    entityFor_eq_ok_iff.mpr ⟨he, hcreate⟩
  have haccepted : accepted (readObjects body) s = (.ok items, s) := by
    rw [hitems]
    rfl
  rw [createRows, Action.bind_apply_of_ok hok, entityFor_store,
    Action.bind_apply_of_ok (congrArg Prod.fst haccepted), haccepted]
  exact Action.bind_pure_apply _ _ s

/-! ### Commands that change rows -/

/-- A row is looked up by its key and changed by the object that a body is. -/
theorem updateRow_apply {m : Model} {segment key : String} {e : Entity} {id : Value}
    (he : m.entityAt? segment = some e) (hupdate : e.allows "update")
    (hkey : readKey e.keyType key = .ok id) (data : Record) (s : σ) :
    updateRow m segment key (.object data) s =
      (inSession (Repository.of m e) (Session.updateById id data true)).mapValue
        (fun row => .one 200 (shownRow e row)) s := by
  have hok : (entityFor m segment "update" s).1 = .ok e := entityFor_eq_ok_iff.mpr ⟨he, hupdate⟩
  have haccepted : accepted (readKey e.keyType key) s = (.ok id, s) := by
    rw [hkey]
    rfl
  rw [updateRow, Action.bind_apply_of_ok hok, entityFor_store,
    Action.bind_apply_of_ok (congrArg Prod.fst haccepted), haccepted]
  exact Action.bind_pure_apply _ _ s

/-! ### Commands that remove rows -/

/-- Without a body, a row is removed by its key, whatever is said about the removal. -/
theorem deleteRow_apply {m : Model} {segment key body : String} {e : Entity}
    (he : m.entityAt? segment = some e) (hdelete : e.allows "delete") (hbody : isEmptyBody body)
    (s : σ) :
    deleteRow m segment key body s =
      (accepted (readKey e.keyType key) >>= fun id =>
        inSession (Repository.of m e) (Session.deleteById id)).mapValue (fun _ => .bare 204) s := by
  have hok : (entityFor m segment "delete" s).1 = .ok e := entityFor_eq_ok_iff.mpr ⟨he, hdelete⟩
  have hnotListed : ¬(Text.trim key = "0" ∧ !isEmptyBody body) := by simp [hbody]
  rw [deleteRow, Action.bind_apply_of_ok hok, entityFor_store, if_neg hnotListed]
  cases readKey e.keyType key with
  | error fault => rfl
  | ok id => exact Action.bind_pure_apply _ _ s

/-! ### Answers -/

/-- A request by a method other than `HEAD` is answered as it is. -/
theorem answer_of_ne_head {r : Request} (h : r.method ≠ "HEAD") (service : Service) (s : σ) :
    service.answer r s = service.carryOut (service.orderOf r) s := by
  rw [Service.answer, if_neg h]

theorem answer_of_get {r : Request} (h : r.method = "GET") (service : Service) (s : σ) :
    service.answer r s = service.carryOut (service.orderOf r) s :=
  answer_of_ne_head (by rw [h]; decide) service s

/-- The methods of what a path points to do not depend on the texts of its segments. -/
theorem Route.methods_of_decoded? {raw route : Route} (h : raw.decoded? = some route) :
    raw.methods = route.methods := by
  cases raw with
  | rows segment =>
      obtain ⟨text, -, rfl⟩ := Option.map_eq_some_iff.mp h
      rfl
  | bulk segment =>
      obtain ⟨text, -, rfl⟩ := Option.map_eq_some_iff.mp h
      rfl
  | row segment key =>
      obtain ⟨text, -, h⟩ := Option.bind_eq_some_iff.mp h
      obtain ⟨keyText, -, h⟩ := Option.bind_eq_some_iff.mp h
      cases h
      rfl
  | _ =>
      cases h
      rfl

/-- A request by a method of what its path points to asks for the order of the route. -/
theorem orderOf_of_route {r : Request} {route : Route}
    (hroute : (Route.of? r.target.segments).bind Route.decoded? = some route)
    (hmethod : route.methods.contains r.method) (hready : route ≠ .ready) (service : Service) :
    service.orderOf r = route.order r := by
  obtain ⟨raw, hraw, hdecoded⟩ := Option.bind_eq_some_iff.mp hroute
  have hnotReady : raw ≠ .ready := by
    rintro rfl
    cases hdecoded
    exact hready rfl
  have hhas : service.lacks r = false := by
    simp [Service.lacks, hraw, hnotReady]
  rw [Service.orderOf, hhas, if_neg Bool.false_ne_true, Order.ofRequest, hraw]
  simp only [Route.methods_of_decoded? hdecoded, hmethod, hdecoded]
  rfl

/-- Whatever is asked of an entity, a path points to, and a method of what it points to asks it. -/
theorem exists_route_of_orderOf {r : Request} {service : Service} {command : Command}
    (h : service.orderOf r = .entity command) :
    ∃ route, (Route.of? r.target.segments).bind Route.decoded? = some route ∧
      route.methods.contains r.method ∧ route.order r = .entity command := by
  unfold Service.orderOf at h
  split at h
  · cases h
  · unfold Order.ofRequest at h
    split at h
    · cases h
    · next raw hraw =>
        split at h
        · cases h
        · next hmethod =>
            split at h
            · cases h
            · next route hdecoded =>
                refine ⟨route, by rw [hraw, Option.bind_some, hdecoded], ?_, h⟩
                rw [← Route.methods_of_decoded? hdecoded]
                simpa using hmethod

theorem withBody_eq_entity {α : Type} {body : Except Rejection α} {make : α → Command}
    {command : Command} (h : withBody body make = .entity command) :
    ∃ a, body = .ok a ∧ make a = command := by
  cases body with
  | error cause => cases h
  | ok a =>
      cases h
      exact ⟨a, rfl, rfl⟩

/-- A command is about the entity that the path of its request leads to. -/
theorem segment?_of_order {r : Request} {route : Route} {command : Command}
    (h : route.order r = .entity command) : route.segment? = some command.segment := by
  cases route with
  | rows segment =>
      unfold Route.order at h
      dsimp only at h
      split at h
      · obtain ⟨body, -, rfl⟩ := withBody_eq_entity h
        rfl
      · obtain ⟨body, -, rfl⟩ := withBody_eq_entity h
        rfl
      · cases h
        rfl
  | row segment key =>
      unfold Route.order at h
      dsimp only at h
      split at h
      · obtain ⟨body, -, rfl⟩ := withBody_eq_entity h
        rfl
      · obtain ⟨body, -, rfl⟩ := withBody_eq_entity h
        rfl
      · cases h
        rfl
  | bulk segment =>
      obtain ⟨body, -, rfl⟩ := withBody_eq_entity h
      rfl
  | _ => cases h

theorem segment?_of_orderOf {r : Request} {service : Service} {command : Command}
    (h : service.orderOf r = .entity command) : r.segment? = some command.segment := by
  obtain ⟨route, hroute, -, horder⟩ := exists_route_of_orderOf h
  rw [Request.segment?, hroute, Option.bind_some, segment?_of_order horder]

theorem entity?_of_orderOf {r : Request} {service : Service} {command : Command}
    (h : service.orderOf r = .entity command) (m : Model) :
    r.entity? m = m.entityAt? command.segment := by
  rw [Request.entity?, segment?_of_orderOf h, Option.bind_some]

/-- What is asked of an entity is asked by a method that is not `HEAD`. -/
theorem method_ne_head_of_orderOf {service : Service} {r : Request} {command : Command}
    (h : service.orderOf r = .entity command) : r.method ≠ "HEAD" := by
  obtain ⟨route, -, hmethod, -⟩ := exists_route_of_orderOf h
  intro hhead
  rw [hhead] at hmethod
  cases route <;> simp [Route.methods] at hmethod

/-- What leads to the rows of an entity is, by the method `GET`, a request for a list. -/
theorem orderOf_of_get {r : Request} {segment : String} (hget : r.method = "GET")
    (hroute : (Route.of? r.target.segments).bind Route.decoded? = some (.rows segment))
    (service : Service) : service.orderOf r = .entity (.list segment r.params) := by
  rw [orderOf_of_route hroute (by rw [hget]; rfl) nofun service]
  simp only [Route.order, hget]
  rfl

/-- What leads to a row is, by the method `PATCH`, a request for its update. -/
theorem orderOf_of_patch {r : Request} {segment key : String} (hpatch : r.method = "PATCH")
    (hroute : (Route.of? r.target.segments).bind Route.decoded? = some (.row segment key))
    (service : Service) : service.orderOf r = withBody r.bodyValue (.update segment key) := by
  rw [orderOf_of_route hroute (by rw [hpatch]; rfl) nofun service]
  simp only [Route.order, hpatch]

/-- What leads to the rows of an entity is, by the method `POST`, a request for a new row. -/
theorem orderOf_of_post {r : Request} {segment : String} (hpost : r.method = "POST")
    (hroute : (Route.of? r.target.segments).bind Route.decoded? = some (.rows segment))
    (service : Service) : service.orderOf r = withBody r.bodyValue (.create segment) := by
  rw [orderOf_of_route hroute (by rw [hpost]; rfl) nofun service]
  simp only [Route.order, hpost]

/-- What leads to many new rows is, by the method `POST`, a request for them. -/
theorem orderOf_of_bulk {r : Request} {segment : String} (hpost : r.method = "POST")
    (hroute : (Route.of? r.target.segments).bind Route.decoded? = some (.bulk segment))
    (service : Service) : service.orderOf r = withBody r.bodyValue (.createMany segment) :=
  orderOf_of_route hroute (by rw [hpost]; rfl) nofun service

/-- What leads to a row is, by the method `DELETE`, a request for its removal. -/
theorem orderOf_of_delete {r : Request} {segment key : String} (hdelete : r.method = "DELETE")
    (hroute : (Route.of? r.target.segments).bind Route.decoded? = some (.row segment key))
    (service : Service) : service.orderOf r = withBody r.bodyText (.delete segment key) := by
  rw [orderOf_of_route hroute (by rw [hdelete]; rfl) nofun service]
  simp only [Route.order, hdelete]

theorem answer_of_patch {r : Request} (h : r.method = "PATCH") (service : Service) (s : σ) :
    service.answer r s = service.carryOut (service.orderOf r) s :=
  answer_of_ne_head (by rw [h]; decide) service s

/-- What is said about an error has the status of a failure. -/
theorem le_errorResponse_status (cause : Error) : 400 ≤ (errorResponse cause).status := by
  cases cause with
  | database cause =>
      cases cause with
      | refused code text =>
          simp only [errorResponse, statusOf]
          split <;> decide
      | _ => simp [errorResponse, statusOf, DatabaseError.isRefusedRow]
  | _ => simp [errorResponse, statusOf]

theorem Rejection.le_response_status (cause : Rejection) : 400 ≤ cause.response.status := by
  cases cause <;> simp [Rejection.response]

/-- A service answers with what a command comes to, or with what is said about its error. -/
theorem carryOut_entity_fst (service : Service) (command : Command) (s : σ) :
    (service.carryOut (.entity command) s).1 =
      match (command.run service.model s).1 with
      | .ok response => response
      | .error cause => errorResponse cause := by
  unfold Service.carryOut
  dsimp only
  split
  · next heq => rw [heq]
  · next heq => rw [heq]

/-- The store after a command is the one that the command leaves, whether it fails or not. -/
theorem carryOut_entity_snd (service : Service) (command : Command) (s : σ) :
    (service.carryOut (.entity command) s).2 = (command.run service.model s).2 := by
  unfold Service.carryOut
  dsimp only
  split
  · next heq => rw [heq]
  · next heq => rw [heq]

/-- Commands that come to the same are answered alike. -/
theorem carryOut_entity_congr {service : Service} {c d : Command} {s : σ}
    (h : c.run service.model s = d.run service.model s) :
    service.carryOut (.entity c) s = service.carryOut (.entity d) s := by
  unfold Service.carryOut
  dsimp only
  rw [h]

end EntityService.Http
