import EntityService.Proofs.Operations
import EntityService.Store.Related

/-!
# What responses give

The rows that a response gives, and where a store in memory takes them from.

## Main definitions

* `Response.data?` — what a response gives
* `Response.GivesOnly` — all rows that a response gives satisfy a condition
* `Memory.Shows` — a value shows a stored row of an entity

## Main results

* `exists_command_of_data?` — only commands that succeed give anything
* `givesOnly_of_listRows`, `givesOnly_of_readRow` — commands that read give stored rows of an entity
  that allows it
-/

namespace EntityService

open EntityService.Http EntityService.Json EntityService.Model EntityService.Query
open EntityService.Store

namespace Http.Response

/-- What a response gives. -/
def data? (r : Response) : Option Value :=
  match r.content with
  | .value v => member? v "data"
  | .empty => none
  | .text _ => none

theorem data?_one (status : Nat) (data : Value) : (one status data).data? = some data := rfl

theorem data?_many (status : Nat) (data : List Value) :
    (many status data).data? = some (.array data) := rfl

theorem data?_page (p : Page Value) : (page p).data? = some (.array p.rows) := rfl

theorem data?_errorResponse (cause : Error) : (errorResponse cause).data? = none := rfl

theorem data?_rejection (cause : Rejection) : cause.response.data? = none := by
  cases cause <;> rfl

/-- What a response gives is a row, or are rows, that satisfy a condition. -/
def GivesOnly (good : Value → Prop) (r : Response) : Prop :=
  ∀ data, r.data? = some data → good data ∨ ∃ rows, data = .array rows ∧ ∀ row ∈ rows, good row

variable {good : Value → Prop}

theorem givesOnly_one {status : Nat} {data : Value} (h : good data) :
    (one status data).GivesOnly good := by
  rintro _ ⟨⟩
  exact .inl h

theorem givesOnly_of_rows {r : Response} {rows : List Value} (hdata : r.data? = some (.array rows))
    (h : ∀ row ∈ rows, good row) : r.GivesOnly good := by
  intro data heq
  rw [hdata] at heq
  exact .inr ⟨rows, (Option.some.inj heq).symm, h⟩

end Http.Response

section Storage

variable {σ : Type} [Storage σ]

/-- Only a command that succeeds gives anything. -/
theorem Service.exists_command_of_data? {service : Service} {order : Order} {s : σ} {data : Value}
    (h : (service.carryOut order s).1.data? = some data) :
    ∃ command response, order = .entity command ∧
      (command.run service.model s).1 = .ok response ∧ (service.carryOut order s).1 = response := by
  cases order with
  | entity command =>
      rw [carryOut_entity_fst] at h ⊢
      split at h
      · next response hresponse => exact ⟨command, response, rfl, hresponse, rfl⟩
      · cases h
  | ready =>
      unfold carryOut readyResponse at h
      dsimp only at h
      split at h <;> cases h
  | unreadable cause =>
      have hnone : cause.response.data? = some data := h
      rw [Response.data?_rejection] at hnone
      cases hnone
  | _ => cases h

end Storage

/-! ### Rows of a store in memory -/

/-- A value shows a stored row of an entity, without the columns that are never shown. -/
def Store.Memory.Shows (store : Memory) (e : Entity) (v : Value) : Prop :=
  ∃ row ∈ store.rows e.id, ∃ p : Plan, v = shownRow e (store.shown p [] row)

namespace Http

variable {m : Model} {store : Memory} {response : Response}

/-- The entity of a command that succeeds. -/
theorem exists_entity_of_bind {σ α : Type} {segment operation : String}
    {next : Entity → Action σ α} {s : σ} {a : α}
    (h : ((entityFor m segment operation >>= next) s).1 = .ok a) :
    ∃ e, m.entityAt? segment = some e ∧ e.allows operation ∧ (next e s).1 = .ok a := by
  obtain ⟨e, he, hnext⟩ := Action.of_bind_eq_ok h
  obtain ⟨hentity, hallowed⟩ := entityFor_eq_ok_iff.mp he
  rw [hnext, entityFor_store] at h
  exact ⟨e, hentity, hallowed, h⟩

theorem accepted_snd {σ α : Type} (read : Except Fault α) (s : σ) : (accepted read s).2 = s := by
  cases read <;> rfl

theorem givesOnly_of_listRows {segment : String} {params : Params}
    (h : (listRows m segment params store).1 = .ok response) :
    ∃ e, m.entityAt? segment = some e ∧ e.allows "read" ∧ response.GivesOnly (store.Shows e) := by
  obtain ⟨e, hentity, hread, -⟩ := exists_entity_of_bind h
  refine ⟨e, hentity, hread, ?_⟩
  let p := ((Repository.of m e).withParams params).searchPlan
  have hshows : ∀ rows ⊆ store.rows e.id, ∀ v ∈ (rows.map (store.shown p [])).map (shownRow e),
      store.Shows e v := by
    intro rows hrows v hv
    rw [List.map_map] at hv
    obtain ⟨row, hrow, rfl⟩ := List.mem_map.mp hv
    exact ⟨row, hrows hrow, p, rfl⟩
  rw [listRows_apply hentity hread] at h
  split at h
  · rw [Action.mapValue_fst, inSession_search, Memory.paginate_fst] at h
    cases h
    exact Response.givesOnly_of_rows (Response.data?_page _)
      (hshows _ (List.Subset.trans (Page.window_subset _ _ _) (selection_subset p _)))
  · rw [Action.mapValue_fst, inSession_all, Memory.get_fst] at h
    cases h
    exact Response.givesOnly_of_rows (Response.data?_many _ _)
      (hshows _ (List.Subset.trans (limited_subset _ _) (selection_subset p _)))

/-- A row that is found is the first one that the store gives. -/
theorem exists_rows_of_find {σ : Type} [Storage σ] {r : Repository} {id : Value}
    {columns : List String} {s : σ} {v : Value}
    (h : (inSession r (Session.find id columns) s).1 = .ok v) :
    ∃ rows, (Storage.get ((r.keyPlan id).add (.take 1)) columns s).1 = .ok rows ∧
      rows.head? = some v := by
  rw [inSession_find] at h
  obtain ⟨row?, hrow, hrest⟩ := Action.of_bind_eq_ok h
  rw [hrest] at h
  cases row? with
  | none => cases h
  | some row =>
      cases h
      rw [Storage.first, Action.mapValue_fst] at hrow
      cases hget : (Storage.get ((r.keyPlan id).add (.take 1)) columns s).1 with
      | error cause =>
          rw [hget] at hrow
          cases hrow
      | ok rows =>
          rw [hget] at hrow
          exact ⟨rows, rfl, Except.ok.inj hrow⟩

theorem givesOnly_of_readRow {segment key : String} {params : Params}
    (h : (readRow m segment key params store).1 = .ok response) :
    ∃ e, m.entityAt? segment = some e ∧ e.allows "read" ∧ response.GivesOnly (store.Shows e) := by
  obtain ⟨e, hentity, hread, h⟩ := exists_entity_of_bind h
  refine ⟨e, hentity, hread, ?_⟩
  obtain ⟨id, -, haccepted⟩ := Action.of_bind_eq_ok h
  rw [haccepted, accepted_snd] at h
  obtain ⟨v, hv, hgiven⟩ := Action.of_bind_eq_ok h
  rw [hgiven] at h
  obtain rfl : Response.one 200 (shownRow e v) = response := Except.ok.inj h
  obtain ⟨rows, hrows, hhead⟩ := exists_rows_of_find hv
  generalize hplan : ((((Repository.of m e).withParams params).loadRequested.keyPlan id).add
    (.take 1)) = p at hrows
  have hentity : p.entity = e := by
    rw [← hplan, Plan.add, Repository.keyPlan_entity, Repository.loadRequested_entity]
    rfl
  rw [Memory.get_fst] at hrows
  obtain rfl := Except.ok.inj hrows
  obtain ⟨row, hrow, rfl⟩ := List.mem_map.mp (List.mem_of_mem_head? hhead)
  have hstored : row ∈ store.rows p.entity.id := selection_subset p _ (limited_subset _ _ hrow)
  rw [hentity] at hstored
  exact Response.givesOnly_one ⟨row, hstored, p, rfl⟩

end Http

end EntityService
