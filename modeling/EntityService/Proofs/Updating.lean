import EntityService.Proofs.Lookup

/-!
# Updates by key

An update looks its row up with the gate of the entity, but writes to the first row with the key.

## Main results

* `updateById_rows`, `updateRow_rows` — what an update does to the rows, and a command for one
* `update_changes_first_row_with_key` — what a request for an update does in a store that has been
  filled by requests
* `update_changes_withdrawn_code` — a row that is not in use gets the change meant for another one

## Design notes

Keys are compared loosely, so that several rows of a table can have one key, and some of these need
not be in use.  A look-up passes over the latter, the change does not.
-/

namespace EntityService

open EntityService.Http EntityService.Json EntityService.Model EntityService.Query
open EntityService.Store EntityService.Validation

/-! ### An update -/

section Update

variable {m : Model} {e : Entity} {id : Value} {store : Memory}

/-- An update looks the row up and checks the data, before it changes the first row with the
key. -/
theorem updateById_apply (hid : id.isNull = false) (hfinite : id.IsFinite)
    (hkeys : ∀ row ∈ store.rows e.id, FiniteKey e row) (data : Record) (touch : Bool) :
    ∃ looked : Memory, (∀ other, looked.rows other = store.rows other) ∧
      looked.clock = store.clock ∧
      inSession (Repository.of m e) (Session.updateById id data touch) store =
        match found store e id, violation? e data .update with
        | .error cause, _ => (.error cause, looked)
        | .ok _, some violation => (.error (.invalid violation), looked)
        | .ok _, none =>
          Action.ofOption (.notFound (.row e.id id))
            ((looked.updateRow e id data touch).1.map Value.object)
            (looked.updateRow e id data touch).2 := by
  obtain ⟨looked, hrows, hclock, hfind⟩ := find_apply (m := m) hid hfinite hkeys
  refine ⟨looked, hrows, hclock, ?_⟩
  let write : Action (Session Memory) Value := do
    let e ← Session.asks (·.entity)
    let row ← Session.onStore (Storage.updateByKey e id data touch)
    Action.ofOption (.notFound (.row e.id id)) row
  have hupdate : Session.updateById id data touch ⟨Repository.of m e, store⟩ =
      (Session.find id [] >>= fun _ => Session.check data .update >>= fun _ => write)
        ⟨Repository.of m e, store⟩ := rfl
  have hentity : (⟨Repository.of m e, looked⟩ : Session Memory).repository.entity = e := rfl
  rw [inSession_apply, hupdate]
  cases hfound : found store e id with
  | error cause =>
      rw [hfound] at hfind
      rw [Action.bind_apply_of_error (congrArg Prod.fst hfind), hfind]
  | ok row =>
      rw [hfound] at hfind
      rw [Action.bind_apply_of_ok (congrArg Prod.fst hfind), hfind]
      dsimp only
      rw [Session.check_bind_apply, hentity]
      cases violation? e data .update with
      | some violation => rfl
      | none =>
          change inSession (Repository.of m e)
            (Session.onStore (Storage.updateByKey e id data touch)
            >>= fun row => Action.ofOption (.notFound (.row e.id id)) row) looked = _
          have hwritten : (Storage.updateByKey e id data touch looked).1 =
              .ok ((looked.updateRow e id data touch).1.map Value.object) := rfl
          rw [inSession_onStore_bind, Action.bind_apply_of_ok hwritten, inSession_ofOption]
          rfl

/-- An update that fails changes no row; one that succeeds has found a row, and changes the first
row with the key, which need not be the row that it has found. -/
theorem updateById_rows (hid : id.isNull = false) (hfinite : id.IsFinite)
    (hkeys : ∀ row ∈ store.rows e.id, FiniteKey e row) (data : Record) (touch : Bool) :
    let result := inSession (Repository.of m e) (Session.updateById id data touch) store
    (∀ other ≠ e.id, result.2.rows other = store.rows other) ∧
      match result.1 with
      | .error _ => result.2.rows e.id = store.rows e.id
      | .ok _ =>
        (∃ row, found store e id = .ok (.object row)) ∧
          result.2.rows e.id =
            (store.rows e.id).modify ((store.rows e.id).findIdx (Memory.hasKey e id)) fun row =>
              Record.putAll row (Memory.assigned e store.clock data touch) := by
  intro result
  obtain ⟨looked, hrows, hclock, hresult⟩ := updateById_apply (m := m) hid hfinite hkeys data touch
  change result = _ at hresult
  cases hfound : found store e id with
  | error cause =>
      rw [hfound] at hresult
      rw [hresult]
      exact ⟨fun other _ => hrows other, hrows e.id⟩
  | ok value =>
      have hrow : ∃ row, value = .object row := by
        unfold found at hfound
        split at hfound
        · next row _ => exact ⟨row, (Except.ok.inj hfound).symm⟩
        · cases hfound
      obtain ⟨row, rfl⟩ := hrow
      rw [hfound] at hresult
      cases hviolation : violation? e data .update with
      | some violation =>
          rw [hviolation] at hresult
          rw [hresult]
          exact ⟨fun other _ => hrows other, hrows e.id⟩
      | none =>
          rw [hviolation] at hresult
          dsimp only at hresult
          cases hchanged : (looked.updateRow e id data touch).1 with
          | none =>
              rw [hchanged, looked.updateRow_snd_of_fst_eq_none e id data touch hchanged] at hresult
              rw [hresult]
              exact ⟨fun other _ => hrows other, hrows e.id⟩
          | some changed =>
              rw [hchanged] at hresult
              rw [hresult]
              refine ⟨fun other hother => ?_, ⟨row, rfl⟩, ?_⟩
              · exact (looked.updateRow_rows_of_ne e id data touch hother).trans (hrows other)
              · rw [← hrows e.id, ← hclock]
                exact looked.updateRow_rows_self e id data touch

end Update

/-! ### A request for an update -/

section Request

variable {service : Service} {e : Entity} {store : Memory}

/-- The key that a path denotes is neither null nor infinite. -/
theorem of_readKey {type : KeyType} {key : String} {id : Value} (h : readKey type key = .ok id) :
    id.isNull = false ∧ id.IsFinite := by
  unfold readKey at h
  split at h
  · split at h
    · cases h
      exact ⟨rfl, trivial⟩
    · cases h
  · cases h
    exact ⟨rfl, trivial⟩
  · split at h
    · cases h
      exact ⟨rfl, trivial⟩
    · cases h

/-- An update by its key of the row that a text names. -/
theorem updateRow_rows {m : Model} {segment : String} (he : m.entityAt? segment = some e)
    (hkeys : ∀ row ∈ store.rows e.id, FiniteKey e row) (key : String) (body : Value) :
    let result := Http.updateRow m segment key body store
    (∀ other ≠ e.id, result.2.rows other = store.rows other) ∧
      match result.1 with
      | .error _ => result.2.rows e.id = store.rows e.id
      | .ok response => response.status = 200 ∧ ∃ id data row, readKey e.keyType key = .ok id ∧
          body = .object data ∧ found store e id = .ok (.object row) ∧
          result.2.rows e.id =
            (store.rows e.id).modify ((store.rows e.id).findIdx (Memory.hasKey e id)) fun row =>
              Record.putAll row (Memory.assigned e store.clock data true) := by
  intro result
  have hentity := entityFor_apply m segment "update" store
  simp only [he] at hentity
  by_cases hallowed : e.allows "update"
  · rw [if_pos hallowed] at hentity
    cases hkey : readKey e.keyType key with
    | error fault =>
        have hafter : result = (.error (.badRequest fault), store) := by
          change Http.updateRow m segment key body store = _
          rw [Http.updateRow, Action.bind_apply_of_ok (congrArg Prod.fst hentity), hentity]
          dsimp only
          rw [hkey]
          rfl
        rw [hafter]
        exact ⟨fun _ _ => rfl, rfl⟩
    | ok id =>
        cases body with
        | object data =>
            have hafter : result = (inSession (Repository.of m e)
                (Session.updateById id data true)).mapValue
                  (fun row => .one 200 (shownRow e row)) store :=
              updateRow_apply he hallowed hkey data store
            obtain ⟨hid, hfinite⟩ := of_readKey hkey
            obtain ⟨hothers, hrows⟩ := updateById_rows (m := m) hid hfinite hkeys data true
            rw [hafter]
            refine ⟨hothers, ?_⟩
            rw [Action.mapValue_fst]
            cases hresult : (inSession (Repository.of m e) (Session.updateById id data true)
                store).1 with
            | error cause =>
                rw [hresult] at hrows
                exact hrows
            | ok changed =>
                rw [hresult] at hrows
                obtain ⟨⟨row, hfound⟩, hmodify⟩ := hrows
                exact ⟨rfl, id, data, row, rfl, rfl, hfound, hmodify⟩
        | _ =>
            have hafter : result = (.error (.badRequest .notAnObject), store) := by
              change Http.updateRow m segment key _ store = _
              rw [Http.updateRow, Action.bind_apply_of_ok (congrArg Prod.fst hentity), hentity]
              dsimp only
              rw [hkey]
              rfl
            rw [hafter]
            exact ⟨fun _ _ => rfl, rfl⟩
  · rw [if_neg hallowed] at hentity
    have hafter : result = (.error (.badRequest (.forbidden "update" e.pathSegment)), store) := by
      change Http.updateRow m segment key body store = _
      rw [Http.updateRow, Action.bind_apply_of_error (congrArg Prod.fst hentity), hentity]
    rw [hafter]
    exact ⟨fun _ _ => rfl, rfl⟩

/-- What is found under a key is the first row that has the key and is in use. -/
theorem getElem?_of_found {id : Value} {row : Record} (h : found store e id = .ok (.object row)) :
    (store.rows e.id)[(store.rows e.id).findIdx (e.shows id)]? = some row := by
  rw [← List.find?_eq_getElem?_findIdx]
  unfold found at h
  split at h
  · next found heq =>
      cases h
      exact heq
  · cases h

/-- The first row with a key is the first one that also is in use exactly when it is in use. -/
theorem findIdx_hasKey_eq_iff {id : Value} {row : Record}
    (h : found store e id = .ok (.object row)) :
    (store.rows e.id).findIdx (Memory.hasKey e id) = (store.rows e.id).findIdx (e.shows id) ↔
      ((store.rows e.id)[(store.rows e.id).findIdx (Memory.hasKey e id)]?).any e.inUse := by
  have hrow := getElem?_of_found h
  constructor
  · intro heq
    have hshows : e.shows id row := List.findIdx_of_getElem?_eq_some hrow
    rw [heq, hrow]
    exact (Bool.and_eq_true_iff.mp hshows).2
  · intro hinUse
    obtain ⟨first, hfirst, hinUse⟩ := (Option.any_eq_true _ _).mp hinUse
    obtain ⟨hlt, rfl⟩ := List.getElem?_eq_some_iff.mp hfirst
    refine ((List.findIdx_eq hlt).mpr ⟨?_, fun i hi => ?_⟩).symm
    · exact Bool.and_eq_true_iff.mpr ⟨List.findIdx_getElem, hinUse⟩
    · -- no row before it has the key
      rw [Entity.shows, List.not_of_lt_findIdx hi, Bool.false_and]

/-- An update by key of a row in a store that a service has filled.  It changes at most one row, and
none unless it is answered with success.  If it is, a look-up of the key gives a row, but the row
that is changed is the first one in the table with the key, whether it is in use or not: it is the
row that the look-up gives exactly when it is in use. -/
theorem update_changes_first_row_with_key {config : Config.Configuration}
    (hmodel : Model.resolve config = .ok service.model) {empty : Memory}
    (hempty : empty.tables = []) (requests : List (String × Request)) (clock : String)
    {r : Request} (hpatch : r.method = "PATCH") {key : String}
    (hroute : r.LeadsToRow service.model e key) :
    let before := { service.serve requests empty with clock }
    let rows := before.rows e.id
    let response := (service.answer r before).1
    let after := (service.answer r before).2
    (∀ other ≠ e.id, after.rows other = before.rows other) ∧
      (response.status ≠ 200 → after.rows e.id = rows) ∧
      (response.status = 200 → ∃ id data row, readKey e.keyType key = .ok id ∧
        r.bodyValue = .ok (.object data) ∧
        (inSession (Repository.of service.model e) (Session.find id []) before).1 =
          .ok (.object row) ∧
        rows[rows.findIdx (e.shows id)]? = some row ∧
        (after.rows e.id = rows.modify (rows.findIdx (Memory.hasKey e id)) fun row =>
          Record.putAll row (Memory.assigned e clock data true)) ∧
        (rows.findIdx (Memory.hasKey e id) = rows.findIdx (e.shows id) ↔
          (rows[rows.findIdx (Memory.hasKey e id)]?).any e.inUse)) := by
  intro before rows response after
  obtain ⟨segment, hsegment, he⟩ := hroute
  have hresolved := Model.isResolved_of_resolve hmodel
  have hkeys : ∀ row ∈ before.rows e.id, FiniteKey e row :=
    finiteKeys_serve hresolved requests hempty e (List.mem_of_find?_eq_some he)
  have hanswer : service.answer r before =
      service.carryOut (withBody r.bodyValue (.update segment key)) before := by
    rw [answer_of_patch hpatch, orderOf_of_patch hpatch hsegment]
  cases hbody : r.bodyValue with
  | error cause =>
      -- a request that cannot be read does nothing
      rw [hbody] at hanswer
      have hresponse : response = cause.response := congrArg Prod.fst hanswer
      have hafter : after = before := congrArg Prod.snd hanswer
      rw [hresponse, hafter]
      exact ⟨fun _ _ => rfl, fun _ => rfl, fun hstatus =>
        absurd (hstatus ▸ Rejection.le_response_status cause) (by decide)⟩
  | ok body =>
      rw [hbody] at hanswer
      obtain ⟨hothers, hrows⟩ := updateRow_rows he hkeys key body
      have hafter : after = (Http.updateRow service.model segment key body before).2 :=
        (congrArg Prod.snd hanswer).trans (carryOut_entity_snd _ _ _)
      have hresponse := (congrArg Prod.fst hanswer).trans
        (carryOut_entity_fst service (.update segment key body) before)
      change response = _ at hresponse
      rw [Command.run] at hresponse
      rw [← hafter] at hothers hrows
      refine ⟨hothers, ?_⟩
      cases hresult : (Http.updateRow service.model segment key body before).1 with
      | error cause =>
          rw [hresult] at hrows hresponse
          rw [hresponse]
          exact ⟨fun _ => hrows, fun hstatus =>
            absurd (hstatus ▸ le_errorResponse_status cause) (by decide)⟩
      | ok answered =>
          rw [hresult] at hrows hresponse
          rw [hresponse]
          obtain ⟨hstatus, id, data, row, hid, rfl, hfound, hmodify⟩ := hrows
          refine ⟨fun hne => absurd hstatus hne, fun _ => ⟨id, data, row, hid, rfl, ?_,
            getElem?_of_found hfound, hmodify, findIdx_hasKey_eq_iff hfound⟩⟩
          obtain ⟨hnull, hfinite⟩ := of_readKey hid
          obtain ⟨looked, -, -, hfind⟩ := find_apply (m := service.model) hnull hfinite hkeys
          rw [inSession_apply, hfind]
          exact hfound

end Request

/-! ### A codebook -/

namespace Codebook

/-- Codes with titles; those that are not active are withdrawn. -/
def codes : Config.EntityDeclaration where
  id := "codes"
  schema := "public"
  table := "codes"
  pathSegment := "codes"
  primaryKey := "code"
  createdAt := "created_at"
  updatedAt := "updated_at"
  columns := [⟨"code", .simple "text", false, none⟩, ⟨"title", .simple "text", true, none⟩,
    ⟨"is_active", .simple "integer", true, none⟩]
  filterableFields := []
  activeFlag := some ⟨"is_active", .ofInt 1⟩
  defaultSort := none
  aggregates := []
  operations := ["create", "read", "update", "delete"]
  sensitiveColumns := []
  validation := []
  pageSize := 25

/-- A service for codes. -/
def service : Service := ⟨⟨[Model.entityOf [] codes]⟩, true⟩

/-- A store without codes. -/
def empty : Memory where
  model := service.model
  clock := ""
  identifiers := fun n => ⟨(Nat.toDigits 16 n).leftpad 32 '0'⟩

/-- A code that is withdrawn, and one that is spelled differently but equal to it as a number. -/
def additions : List (String × Request) :=
  [("2000-01-01T00:00:00+00:00", ⟨"POST", .read "/api/v1/codes", some "application/json",
      "\x7b\"code\":\"1\",\"title\":\"hidden\",\"is_active\":0\x7d"⟩),
    ("2000-01-02T00:00:00+00:00", ⟨"POST", .read "/api/v1/codes", some "application/json",
      "\x7b\"code\":\"01\",\"title\":\"shown\",\"is_active\":1\x7d"⟩)]

/-- A new title for a code. -/
def change : Request :=
  ⟨"PATCH", .read "/api/v1/codes/1", some "application/json", "\x7b\"title\":\"changed\"\x7d"⟩

/-- The codes after the additions, at the time of the change. -/
def before : Memory :=
  { service.serve additions empty with clock := "2000-01-03T00:00:00+00:00" }

end Codebook

open Codebook in
/-- The change of a title is answered with success, and is made in the first row with the code. -/
theorem update_changes_first_row_with_key_codes :
    let e := Model.entityOf [] codes
    (service.answer change before).1.status = 200 ∧
      ∃ data row, (inSession (Repository.of service.model e) (Session.find (.string "1") [])
          before).1 = .ok (.object row) ∧
        (service.answer change before).2.rows e.id =
          (before.rows e.id).modify ((before.rows e.id).findIdx
            (Memory.hasKey e (.string "1"))) fun row =>
              Record.putAll row (Memory.assigned e before.clock data true) := by
  intro e
  have hmodel : Model.resolve ⟨[codes], []⟩ = .ok service.model := rfl
  have hempty : empty.tables = [] := rfl
  have hpatch : change.method = "PATCH" := rfl
  have hroute : change.LeadsToRow service.model e "1" := ⟨"codes", by decide, rfl⟩
  obtain ⟨-, -, hsuccess⟩ := update_changes_first_row_with_key hmodel hempty additions
    "2000-01-03T00:00:00+00:00" hpatch hroute
  obtain ⟨id, data, row, hid, -, hfind, -, hrows, -⟩ := hsuccess (by decide +kernel)
  obtain rfl : Value.string "1" = id := Except.ok.inj hid
  exact ⟨by decide +kernel, data, row, hfind, hrows⟩

open Codebook in
/-- The row that is changed need not be in use: the withdrawn code gets the title that is meant for
the other one. -/
theorem update_changes_withdrawn_code :
    (service.answer change before).1.status = 200 ∧
      (before.rows "codes").map (Model.entityOf [] codes).inUse = [false, true] ∧
      (before.rows "codes").map (fun row => (Record.cell row "title").plainText) =
        ["hidden", "shown"] ∧
      ((service.answer change before).2.rows "codes").map
          (fun row => (Record.cell row "title").plainText) = ["changed", "shown"] := by
  decide +kernel

end EntityService
