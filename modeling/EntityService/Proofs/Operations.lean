import EntityService.Proofs.Composition
import EntityService.Proofs.FiniteData
import EntityService.Proofs.Handling

/-!
# What requests do to a store

A request does nothing to the store of a service but operations of the store, on entities of the
model and with data that are read from the body of the request.

## Main definitions

* `Operation`, `operate` — an operation of a store, and the store after several of them
* `Operation.IsWithin` — an operation writes to entities of a model, with data of a kind
* `Operation.AllowsLooking` — operations that write nothing are permitted
* `Operation.AllowsReading` — operations that add and change no rows are permitted
* `Operation.IsGranted` — an operation writes to the entity of a request, which allows it
* `Reaches` — a store is led to another one by permitted operations
* `Action.Operates` — an action does nothing to a store but permitted operations

## Main results

* `reading_operates`, `operates_create`, `operates_updateById`, … — what the operations of a
  repository do
* `operates_terminal` — what any operation of a repository does
* `operates_run` — what a command does
* `reaches_granted_answer` — what a request does is granted by the entity that it is about
* `reaches_answer` — what a request does is done to entities of the model

## Design notes

`Action.Operates` is about actions on any state that holds a store, so that it serves both for
sessions and for stores alone.  Data are checked before they are written, so what is asked of the
operations that write may rest on the check.
-/

namespace EntityService

open EntityService.Http EntityService.Json EntityService.Model EntityService.Query
open EntityService.Store EntityService.Validation

variable {σ τ α β : Type}

/-! ### Operations of a store -/

namespace Store

/-- An operation of a store, with its arguments. -/
inductive Operation where
  | get (p : Plan) (columns : List String)
  | paginate (p : Plan) (columns : List String) (perPage page : Nat)
  | count (p : Plan)
  | delete (p : Plan)
  | insert (e : Entity) (data : Record)
  | updateByKey (e : Entity) (id : Value) (data : Record) (touch : Bool)
  | ping
  deriving Repr

/-- An operation writes, if it does, to an entity of a model, and its data are of a kind. -/
def Operation.IsWithin (m : Model) (kind : Record → Prop) : Operation → Prop
  | insert e data => e ∈ m.entities ∧ kind data
  | updateByKey e _ data _ => e ∈ m.entities ∧ kind data
  | _ => True

/-- Operations that write nothing are permitted. -/
structure Operation.AllowsLooking (permitted : Operation → Prop) : Prop where
  get : ∀ p columns, permitted (get p columns)
  paginate : ∀ p columns perPage page, permitted (paginate p columns perPage page)
  count : ∀ p, permitted (count p)

/-- Operations that add and change no rows are permitted. -/
structure Operation.AllowsReading (permitted : Operation → Prop) : Prop where
  get : ∀ p columns, permitted (get p columns)
  paginate : ∀ p columns perPage page, permitted (paginate p columns perPage page)
  count : ∀ p, permitted (count p)
  delete : ∀ p, permitted (delete p)

theorem Operation.AllowsReading.looking {permitted : Operation → Prop}
    (h : AllowsReading permitted) : AllowsLooking permitted :=
  ⟨h.get, h.paginate, h.count⟩

variable [Storage σ]

/-- The store after an operation. -/
def Operation.after (s : σ) : Operation → σ
  | get p columns => (Storage.get p columns s).2
  | paginate p columns perPage page => (Storage.paginate p columns perPage page s).2
  | count p => (Storage.count p s).2
  | delete p => (Storage.delete p s).2
  | insert e data => (Storage.insert e data s).2
  | updateByKey e id data touch => (Storage.updateByKey e id data touch s).2
  | ping => (Storage.ping s).2

/-- The store after operations. -/
def operate (operations : List Operation) (s : σ) : σ := operations.foldl Operation.after s

/-- A store is led to another one by permitted operations. -/
def Reaches (permitted : Operation → Prop) (s t : σ) : Prop :=
  ∃ operations, (∀ operation ∈ operations, permitted operation) ∧ t = operate operations s

variable {permitted : Operation → Prop}

theorem Reaches.refl (s : σ) : Reaches permitted s s := ⟨[], nofun, rfl⟩

theorem Reaches.trans {s t u : σ} (hst : Reaches permitted s t) (htu : Reaches permitted t u) :
    Reaches permitted s u := by
  obtain ⟨before, hbefore, rfl⟩ := hst
  obtain ⟨after, hafter, rfl⟩ := htu
  exact ⟨before ++ after, List.forall_mem_append.mpr ⟨hbefore, hafter⟩, by
    rw [operate, operate, operate, List.foldl_append]⟩

theorem Reaches.mono {allowed : Operation → Prop}
    (hallowed : ∀ operation, permitted operation → allowed operation) {s t : σ}
    (h : Reaches permitted s t) : Reaches allowed s t := by
  obtain ⟨operations, hpermitted, heq⟩ := h
  exact ⟨operations, fun operation hmem => hallowed operation (hpermitted operation hmem), heq⟩

theorem Reaches.after (operation : Operation) (h : permitted operation) (s : σ) :
    Reaches permitted s (operation.after s) :=
  ⟨[operation], List.forall_mem_singleton.mpr h, rfl⟩

end Store

/-! ### Actions on a store -/

namespace Action

variable [Storage σ]

/-- In states with a property an action does nothing to the store in the state but permitted
operations, and it keeps the property. -/
def Operates (store : τ → σ) (inv : τ → Prop) (permitted : Operation → Prop) (a : Action τ α) :
    Prop :=
  ∀ s, inv s → inv (a s).2 ∧ Reaches permitted (store s) (store (a s).2)

variable {store : τ → σ} {inv : τ → Prop} {permitted : Operation → Prop}

/-- An action that leaves every state as it is. -/
theorem operates_of_snd_eq {a : Action τ α} (h : ∀ s, (a s).2 = s) :
    Operates store inv permitted a := by
  intro s hs
  rw [h s]
  exact ⟨hs, Reaches.refl _⟩

theorem operates_pure (x : α) : Operates store inv permitted (Pure.pure x : Action τ α) :=
  operates_of_snd_eq fun _ => rfl

theorem operates_fail (cause : Error) :
    Operates store inv permitted (fail cause : Action τ α) :=
  operates_of_snd_eq fun _ => rfl

theorem operates_ofOption (cause : Error) (x : Option α) :
    Operates store inv permitted (ofOption cause x : Action τ α) := by
  cases x with
  | none => exact operates_fail cause
  | some x => exact operates_pure x

theorem Operates.bind {first : Action τ α} {next : α → Action τ β}
    (hfirst : Operates store inv permitted first)
    (hnext : ∀ x s, inv s → (first s).1 = .ok x → Operates store inv permitted (next x)) :
    Operates store inv permitted (first >>= next) := by
  intro s hs
  obtain ⟨hinv, hreaches⟩ := hfirst s hs
  cases hresult : (first s).1 with
  | error cause =>
      rw [bind_apply_of_error hresult]
      exact ⟨hinv, hreaches⟩
  | ok x =>
      rw [bind_apply_of_ok hresult]
      obtain ⟨hinv', hreaches'⟩ := hnext x s hs hresult _ hinv
      exact ⟨hinv', hreaches.trans hreaches'⟩

theorem Operates.bind_pure {a : Action τ α} (h : Operates store inv permitted a) (f : α → β) :
    Operates store inv permitted (a >>= fun x => Pure.pure (f x)) :=
  h.bind fun _ _ _ _ => operates_pure _

end Action

namespace Session

open EntityService.Action

variable [Storage σ]

/-- An operation on a repository of an entity does nothing to the store but permitted operations. -/
abbrev Operates (e : Entity) (permitted : Operation → Prop) (a : Action (Session σ) α) : Prop :=
  Action.Operates Session.store (fun s => s.repository.entity = e) permitted a

variable {e : Entity} {permitted : Operation → Prop}

theorem operates_take (use : Repository → α) : Operates (σ := σ) e permitted (take use) :=
  fun _ hs => ⟨hs, Reaches.refl _⟩

theorem operates_asks (question : Repository → α) :
    Operates (σ := σ) e permitted (asks question) :=
  operates_of_snd_eq fun _ => rfl

theorem operates_onStore {a : Action σ α} (operation : Operation) (h : permitted operation)
    (ha : ∀ s, (a s).2 = operation.after s) : Operates e permitted (onStore a) := by
  intro s hs
  refine ⟨hs, ?_⟩
  change Reaches permitted s.store (a s.store).2
  rw [ha]
  exact Reaches.after operation h _

section Permitted

variable (h : Operation.AllowsLooking permitted)

include h

/-- Parts that read do nothing to the store but what is permitted, and neither do sequences of
them. -/
theorem reading_operates : Reading (σ := σ) fun _ a => Operates e permitted a where
  pure := operates_pure
  fail := operates_fail
  bind ha hnext := ha.bind fun x _ _ _ => hnext x
  asks := operates_asks
  take := operates_take
  rows p columns := operates_onStore (.get p columns) (h.get p columns) fun _ => rfl
  page p columns perPage number :=
    operates_onStore (.paginate p columns perPage number) (h.paginate p columns perPage number)
      fun _ => rfl
  size p := operates_onStore (.count p) (h.count p) fun _ => rfl

/-- What is done after a check is done with data that break no rule of the entity. -/
theorem operates_check_bind {data : Record} {mode : Mode} {next : Unit → Action (Session σ) α}
    (hnext : e.admits mode data → Operates e permitted (next ())) :
    Operates e permitted (check data mode >>= next) := by
  refine ((reading_operates h).check data mode).bind fun _ s hs hok => hnext ?_
  rw [check_apply] at hok
  split at hok
  · cases hok
  · next hnone =>
      obtain rfl : s.repository.entity = e := hs
      rw [Entity.admits, hnone]
      rfl

/-- Data are written to the entity of the repository. -/
theorem operates_create {data : Record}
    (hdata : e.admits .create data → permitted (.insert e data)) :
    Operates (σ := σ) e permitted (create data) := by
  refine (operates_take _).bind fun _ _ _ _ => ?_
  refine operates_check_bind h fun hadmits => ?_
  refine (operates_asks _).bind fun d s hs hd => ?_
  obtain rfl : d = e := (Except.ok.inj hd).symm.trans hs
  exact operates_onStore (.insert d data) (hdata hadmits) fun _ => rfl

theorem operates_createMultiple {items : List Record}
    (hitems : ∀ data ∈ items, e.admits .create data → permitted (.insert e data)) :
    Operates (σ := σ) e permitted (createMultiple items) := by
  induction items with
  | nil => exact operates_pure _
  | cons data rest ih =>
      obtain ⟨hdata, hrest⟩ := List.forall_mem_cons.mp hitems
      refine (operates_create h hdata).bind fun _ _ _ _ => ?_
      exact (ih hrest).bind_pure _

theorem operates_updateById (id : Value) {data : Record} (touch : Bool)
    (hdata : e.admits .update data → permitted (.updateByKey e id data touch)) :
    Operates (σ := σ) e permitted (updateById id data touch) := by
  refine (operates_take _).bind fun _ _ _ _ => ?_
  refine ((reading_operates h).find id []).bind fun _ _ _ _ => ?_
  refine operates_check_bind h fun hadmits => ?_
  refine (operates_asks _).bind fun d s hs hd => ?_
  obtain rfl : d = e := (Except.ok.inj hd).symm.trans hs
  refine (operates_onStore (.updateByKey d id data touch) (hdata hadmits)
    fun _ => rfl).bind fun row _ _ _ => ?_
  exact operates_ofOption _ row

end Permitted

section Removal

variable (hdelete : ∀ p : Plan, p.entity = e → permitted (.delete p))

include hdelete

/-- A removal concerns the entity of the repository, as the plans of the repository do. -/
theorem operates_remove {p : Plan} (hp : p.entity = e) :
    Operates (σ := σ) e permitted (onStore (Storage.delete p)) :=
  operates_onStore (.delete p) (hdelete p hp) fun _ => rfl

theorem operates_deleteById (h : Operation.AllowsLooking permitted) (id : Value) :
    Operates (σ := σ) e permitted (deleteById id) := by
  refine (operates_take _).bind fun _ _ _ _ => ?_
  refine ((reading_operates h).find id []).bind fun _ _ _ _ => ?_
  refine (operates_take _).bind fun plan s hs hplan => ?_
  obtain rfl : s.repository.keyPlan id = plan := Except.ok.inj hplan
  exact (operates_remove hdelete hs).bind_pure _

theorem operates_deleteMultipleById (ids : List Value) :
    Operates (σ := σ) e permitted (deleteMultipleById ids) := by
  refine (operates_take _).bind fun _ _ _ _ => ?_
  split
  · exact operates_pure _
  · refine (operates_asks _).bind fun plan s hs hplan => ?_
    obtain rfl : s.repository.keysPlan ids = plan := Except.ok.inj hplan
    exact operates_remove hdelete hs

theorem operates_delete : Operates (σ := σ) e permitted delete := by
  refine (operates_take _).bind fun plan s hs hplan => ?_
  obtain rfl : s.repository.pendingPlan = plan := Except.ok.inj hplan
  exact operates_remove hdelete hs

end Removal

/-- An operation on a repository does nothing to the store but what is permitted, if data that break
no rule of the entity may be written. -/
theorem operates_terminal (h : Operation.AllowsReading permitted)
    (hinsert : ∀ data, e.admits .create data → permitted (.insert e data))
    (hupdate : ∀ id data touch, e.admits .update data → permitted (.updateByKey e id data touch))
    (t : Terminal) : Operates (σ := σ) e permitted t.run := by
  have hreading : Reading (σ := σ) fun _ a => Operates e permitted a := reading_operates h.looking
  have hdelete : ∀ p : Plan, p.entity = e → permitted (.delete p) := fun p _ => h.delete p
  cases t with
  | all columns => exact hreading.mapValue (hreading.all columns) _
  | get columns => exact hreading.mapValue (hreading.get columns) _
  | first columns => exact hreading.mapValue (hreading.first columns) _
  | find id columns => exact hreading.mapValue (hreading.find id columns) _
  | findBy column value columns => exact hreading.mapValue (hreading.findBy column value columns) _
  | create data => exact hreading.mapValue (operates_create h.looking (hinsert data)) _
  | createMultiple items =>
      exact hreading.mapValue (operates_createMultiple h.looking fun data _ => hinsert data) _
  | updateById id data touch =>
      exact hreading.mapValue (operates_updateById h.looking id touch (hupdate id data touch)) _
  | deleteById id => exact hreading.mapValue (operates_deleteById hdelete h.looking id) _
  | deleteMultipleById ids => exact hreading.mapValue (operates_deleteMultipleById hdelete ids) _
  | paginate size columns pageKey page =>
      exact hreading.mapValue (hreading.paginate size columns pageKey page) _
  | search => exact hreading.mapValue hreading.search _
  | count => exact hreading.mapValue hreading.count _
  | delete => exact hreading.mapValue (operates_delete hdelete) _

end Session

/-! ### Requests -/

namespace Http

open EntityService.Action Session

variable [Storage σ]

/-- An action does nothing to its store but permitted operations. -/
abbrev Operates (permitted : Operation → Prop) (a : Action σ α) : Prop :=
  Action.Operates id (fun _ => True) permitted a

variable {m : Model} {permitted : Operation → Prop}

theorem operates_entityFor (segment operation : String) :
    Operates (σ := σ) permitted (entityFor m segment operation) :=
  operates_of_snd_eq fun s => entityFor_store m segment operation s

theorem operates_accepted (read : Except Fault α) :
    Operates (σ := σ) permitted (accepted read) := by
  cases read with
  | ok x => exact operates_pure x
  | error fault => exact operates_fail _

/-- An operation runs on a repository of its entity. -/
theorem operates_inSession {r : Repository} {a : Action (Session σ) α}
    (h : Session.Operates r.entity permitted a) : Operates permitted (inSession r a) :=
  fun s _ => ⟨trivial, (h ⟨r, s⟩ rfl).2⟩

omit [Storage σ] in
theorem accepted_eq_ok {read : Except Fault α} {s : σ} {x : α}
    (h : (accepted read s).1 = .ok x) : read = .ok x := by
  cases read with
  | ok y =>
      obtain rfl : y = x := Except.ok.inj h
      rfl
  | error fault => cases h

/-- The data of a request are read from its body. -/
def IsBody (data : Record) : Prop := (Value.object data).IsRead

theorem isBody_of_readObject {body : Value} (hbody : body.IsRead) {data : Record}
    (h : readObject body = .ok data) : IsBody data := by
  cases body with
  | object members =>
      cases h
      exact hbody
  | _ => cases h

theorem exists_of_mem_mapM {ε : Type} {read : α → Except ε β} {xs : List α} {ys : List β}
    (h : xs.mapM read = .ok ys) : ∀ y ∈ ys, ∃ x ∈ xs, read x = .ok y := by
  induction xs generalizing ys with
  | nil =>
      cases h
      exact nofun
  | cons x xs ih =>
      rw [List.mapM_cons] at h
      cases hx : read x with
      | error cause =>
          rw [hx] at h
          cases h
      | ok first =>
          cases hxs : xs.mapM read with
          | error cause =>
              rw [hx, hxs] at h
              cases h
          | ok rest =>
              rw [hx, hxs] at h
              cases h
              refine List.forall_mem_cons.mpr ⟨⟨x, List.mem_cons_self, hx⟩, fun y hy => ?_⟩
              obtain ⟨x', hx', hread⟩ := ih hxs y hy
              exact ⟨x', List.mem_cons_of_mem _ hx', hread⟩

theorem isBody_of_readObjects {body : Value} (hbody : body.IsRead) {items : List Record}
    (h : readObjects body = .ok items) : ∀ data ∈ items, IsBody data := by
  cases body with
  | array values =>
      unfold readObjects at h
      dsimp only at h
      split at h
      · cases h
      · intro data hdata
        obtain ⟨v, hv, hread⟩ := exists_of_mem_mapM h data hdata
        exact isBody_of_readObject (hbody.item hv) hread
  | _ => cases h

/-- What a command writes is read from its body. -/
def Command.IsRead : Command → Prop
  | .create _ body => body.IsRead
  | .createMany _ body => body.IsRead
  | .update _ _ body => body.IsRead
  | _ => True

/-- An operation writes, if it does, to the entity that is addressed, if that allows it, and its
data are read from a body. -/
def Operation.IsGranted (addressed : Option Entity) : Operation → Prop
  | .insert e data =>
    addressed = some e ∧ (e.allows "create" ∨ e.allows "bulk_create") ∧ IsBody data
  | .updateByKey e _ data _ => addressed = some e ∧ e.allows "update" ∧ IsBody data
  | .delete p => addressed = some p.entity ∧ p.entity.allows "delete"
  | _ => True

theorem allowsLooking_isGranted (addressed : Option Entity) :
    Operation.AllowsLooking (Operation.IsGranted addressed) :=
  ⟨fun _ _ => trivial, fun _ _ _ _ => trivial, fun _ => trivial⟩

/-- What is granted is done to entities of the model. -/
theorem Operation.IsGranted.isWithin {addressed : Option Entity}
    (haddressed : ∀ e ∈ addressed, e ∈ m.entities) {operation : Operation}
    (h : Operation.IsGranted addressed operation) : operation.IsWithin m IsBody := by
  cases operation with
  | insert e data => exact ⟨haddressed e h.1, h.2.2⟩
  | updateByKey e id data touch => exact ⟨haddressed e h.1, h.2.2⟩
  | _ => exact trivial

theorem operates_deleteListed {addressed : Option Entity} {e : Entity}
    (he : addressed = some e ∧ e.allows "delete") (body : String) :
    Operates (σ := σ) (Operation.IsGranted addressed) (deleteListed m e body) := by
  refine (operates_accepted _).bind fun ids _ _ _ => ?_
  refine (operates_inSession (operates_deleteMultipleById ?_ ids)).bind_pure _
  rintro p rfl
  exact he

/-- A command does nothing to its store but operations that its entity allows, on this entity and
with data of its body. -/
theorem operates_run {command : Command} (h : command.IsRead) :
    Operates (σ := σ) (Operation.IsGranted (m.entityAt? command.segment)) (command.run m) := by
  have hlooking := allowsLooking_isGranted (m.entityAt? command.segment)
  cases command with
  | list segment params =>
      refine (operates_entityFor segment "read").bind fun e _ _ _ => ?_
      dsimp only
      split
      · exact (operates_inSession (reading_operates hlooking).search).bind_pure _
      · exact (operates_inSession ((reading_operates hlooking).all [])).bind_pure _
  | read segment key params =>
      refine (operates_entityFor segment "read").bind fun e _ _ _ => ?_
      refine (operates_accepted _).bind fun id _ _ _ => ?_
      exact (operates_inSession ((reading_operates hlooking).find id [])).bind_pure _
  | create segment body =>
      refine (operates_entityFor segment "create").bind fun e _ _ he => ?_
      obtain ⟨hentity, hallowed⟩ := entityFor_eq_ok_iff.mp he
      refine (operates_accepted _).bind fun data _ _ hdata => ?_
      refine (operates_inSession (operates_create hlooking fun _ => ?_)).bind_pure _
      exact ⟨hentity, .inl hallowed, isBody_of_readObject h (accepted_eq_ok hdata)⟩
  | createMany segment body =>
      refine (operates_entityFor segment "bulk_create").bind fun e _ _ he => ?_
      obtain ⟨hentity, hallowed⟩ := entityFor_eq_ok_iff.mp he
      refine (operates_accepted _).bind fun items _ _ hitems => ?_
      have hbodies := isBody_of_readObjects h (accepted_eq_ok hitems)
      refine (operates_inSession
        (operates_createMultiple hlooking fun data hdata _ => ?_)).bind_pure _
      exact ⟨hentity, .inr hallowed, hbodies data hdata⟩
  | update segment key body =>
      refine (operates_entityFor segment "update").bind fun e _ _ he => ?_
      obtain ⟨hentity, hallowed⟩ := entityFor_eq_ok_iff.mp he
      refine (operates_accepted _).bind fun id _ _ _ => ?_
      refine (operates_accepted _).bind fun data _ _ hdata => ?_
      refine (operates_inSession (operates_updateById hlooking id true fun _ => ?_)).bind_pure _
      exact ⟨hentity, hallowed, isBody_of_readObject h (accepted_eq_ok hdata)⟩
  | deleteMany segment body =>
      exact (operates_entityFor segment "delete").bind fun e _ _ he =>
        operates_deleteListed (entityFor_eq_ok_iff.mp he) body
  | delete segment key body =>
      refine (operates_entityFor segment "delete").bind fun e _ _ he => ?_
      split
      · exact operates_deleteListed (entityFor_eq_ok_iff.mp he) body
      · refine (operates_accepted _).bind fun id _ _ _ => ?_
        refine (operates_inSession (operates_deleteById ?_ hlooking id)).bind_pure _
        rintro p rfl
        exact entityFor_eq_ok_iff.mp he

/-- What is asked is carried out by nothing but operations on entities of the model. -/
def Order.IsRead : Order → Prop
  | .entity command => command.IsRead
  | _ => True

theorem isRead_of_bodyValue {r : Request} {body : Value} (h : r.bodyValue = .ok body) :
    body.IsRead := by
  unfold Request.bodyValue at h
  split at h
  · cases h
  · split at h
    · cases h
    · split at h
      · next text _ v hv =>
          cases h
          obtain ⟨t, -, ht⟩ := Option.bind_eq_some_iff.mp hv
          exact ⟨_, t, ht⟩
      · cases h

theorem isRead_withBody {r : Request} {command : Value → Command}
    (h : ∀ body : Value, body.IsRead → (command body).IsRead) :
    (withBody r.bodyValue command).IsRead := by
  cases hbody : r.bodyValue with
  | error cause => exact trivial
  | ok body => exact h body (isRead_of_bodyValue hbody)

/-- Whatever a request asks to write is read from its body. -/
theorem isRead_ofRequest (r : Request) : (Order.ofRequest r).IsRead := by
  unfold Order.ofRequest
  split
  · exact trivial
  · next route _ =>
      split
      · exact trivial
      · split
        · exact trivial
        · next route _ =>
            cases route with
            | rows segment =>
                unfold Route.order
                dsimp only
                split
                · exact isRead_withBody fun _ h => h
                · cases r.bodyText <;> exact trivial
                · exact trivial
            | row segment key =>
                unfold Route.order
                dsimp only
                split
                · exact isRead_withBody fun _ h => h
                · cases r.bodyText <;> exact trivial
                · exact trivial
            | bulk segment => exact isRead_withBody fun _ h => h
            | _ => exact trivial

end Http

namespace Service

variable [Storage σ]

theorem reaches_carryOut (service : Service) {order : Order} (h : order.IsRead)
    {addressed : Option Entity}
    (haddressed : ∀ command, order = .entity command →
      service.model.entityAt? command.segment = addressed) (s : σ) :
    Reaches (Operation.IsGranted addressed) s (service.carryOut order s).2 := by
  cases order with
  | entity command =>
      rw [carryOut_entity_snd, ← haddressed command rfl]
      exact (operates_run h s trivial).2
  | ready => exact Reaches.after .ping trivial s
  | _ => exact Reaches.refl s

/-- A request does nothing to the store but operations that the entity it is about allows, on this
entity and with data of its body. -/
theorem reaches_granted_answer (service : Service) (r : Request) (s : σ) :
    Reaches (Operation.IsGranted (r.entity? service.model)) s (service.answer r s).2 := by
  have horder (r : Request) : (service.orderOf r).IsRead := by
    unfold orderOf
    split
    · exact trivial
    · exact isRead_ofRequest r
  have haddressed (r : Request) (command : Command) (h : service.orderOf r = .entity command) :
      service.model.entityAt? command.segment = r.entity? service.model :=
    (entity?_of_orderOf h service.model).symm
  unfold answer
  split
  · exact service.reaches_carryOut (horder _) (haddressed { r with method := "GET" }) s
  · exact service.reaches_carryOut (horder r) (haddressed r) s

/-- A request does nothing to the store but operations on entities of the model, with data of its
body. -/
theorem reaches_answer (service : Service) (r : Request) (s : σ) :
    Reaches (Operation.IsWithin service.model IsBody) s (service.answer r s).2 := by
  refine (service.reaches_granted_answer r s).mono fun operation h => h.isWithin fun e he => ?_
  exact Request.mem_of_entity? he

end Service

end EntityService
