import EntityService.Proofs.AnsweredRows
import EntityService.Proofs.Bookshop
import EntityService.Store.Database
import EntityService.Store.Noted
import Mathlib.Data.List.Forall2

/-!
# Rows as they are shown

Whatever rows a store answers with, a response gives them without the members that are never shown,
and changes nothing else about them.

## Main definitions

* `Entity.Redacts` — a row as the store gives it, and as a response gives it
* `Response.Gives` — a response gives the rows that a store has answered with
* `Action.Notes` — an action on a noted store, next to the same one on the store inside

## Main results

* `Notes.bind` — what is noted by one action after another
* `notes_find`, `notes_createMultiple`, `notes_updateById`, … — what the operations of a repository
  note
* `notes_run` — what a command notes, next to what it responds with
* `answered_rows_are_redacted` — all responses give rows as they are shown

## Design notes

Which rows a store answers with may depend on all that it was asked before, so they are observed on
a noted store, and a run on a noted store is compared with one on the store inside.
-/

namespace EntityService

open EntityService.Http EntityService.Json EntityService.Model EntityService.Query
open EntityService.Store EntityService.Validation

/-! ### Rows as they are shown -/

/-- A row is shown as another one: the members whose keys are never shown are left out, and the
others stay as they are, in their order.  A value that is no row stays as it is. -/
def Model.Entity.Redacts (e : Entity) (row shown : Value) : Prop :=
  match row with
  | .object members => ∃ left, shown = .object left ∧ left.Sublist members ∧
      ∀ member, member ∈ left ↔ member ∈ members ∧ member.1 ∉ e.sensitive
  | v => shown = v

theorem Http.redacts_shownRow (e : Entity) (row : Value) : e.Redacts row (shownRow e row) := by
  cases row with
  | object members =>
      refine ⟨e.withoutHidden members, rfl, List.filter_sublist, fun member => ?_⟩
      rw [Entity.withoutHidden, Record.keep, List.mem_filter]
      simp [Entity.hides]
  | _ => rfl

theorem Http.forall₂_redacts_map (e : Entity) (rows : List Value) :
    List.Forall₂ e.Redacts rows (rows.map (shownRow e)) :=
  List.forall₂_map_right_iff.mpr (List.forall₂_same.mpr fun row _ => redacts_shownRow e row)

/-- A response gives rows that a store has answered with, as they are shown: all of them, or the
first one of the last answer. -/
def Http.Response.Gives (e : Entity) (answered : List (List Value)) (r : Response) : Bool → Prop
  | true => ∃ shown, r.data? = some (.array shown) ∧ List.Forall₂ e.Redacts answered.flatten shown
  | false => ∃ row shown, answered.getLast?.bind List.head? = some row ∧ r.data? = some shown ∧
      e.Redacts row shown

namespace Http.Response

variable {e : Entity} {answered : List (List Value)}

theorem gives_page {page : Page Value} (h : answered.flatten = page.rows) :
    (Response.page (page.mapRows (shownRow e))).Gives e answered true :=
  ⟨_, data?_page _, h ▸ forall₂_redacts_map e page.rows⟩

theorem gives_many {status : Nat} {rows : List Value} (h : answered.flatten = rows) :
    (many status (rows.map (shownRow e))).Gives e answered true :=
  ⟨_, data?_many _ _, h ▸ forall₂_redacts_map e rows⟩

theorem gives_one {status : Nat} {rows : List Value} {row : Value}
    (h : answered.getLast? = some rows) (hrow : rows.head? = some row) :
    (one status (shownRow e row)).Gives e answered false :=
  ⟨row, _, by rw [h, Option.bind_some, hrow], data?_one _ _, redacts_shownRow e row⟩

end Http.Response

/-- A command that succeeds gives rows. -/
def Http.Command.givesRows : Command → Bool
  | .deleteMany _ _ => false
  | .delete _ _ _ => false
  | _ => true

/-- A command that succeeds gives all rows that the store has answered with. -/
def Http.Command.givesAll : Command → Bool
  | .list _ _ => true
  | .createMany _ _ => true
  | _ => false

/-! ### Actions on noted stores -/

namespace Action

variable {τ τ' α β : Type}

/-- An action on states in which the answers of a store are noted, next to one on states in which
they are not: the two do the same, and if they end with a value, what has been noted fits it. -/
structure NotesFrom (view : τ → τ' × List (List Value)) (fits : α → List (List Value) → Prop)
    (a : Action τ α) (b : Action τ' α) (s : τ) : Prop where
  result_eq : (a s).1 = (b (view s).1).1
  state_eq : (view (a s).2).1 = (b (view s).1).2
  noted : ∀ x, (a s).1 = .ok x → ∃ more, (view (a s).2).2 = (view s).2 ++ more ∧ fits x more

/-- The same in every state. -/
def Notes (view : τ → τ' × List (List Value)) (fits : α → List (List Value) → Prop)
    (a : Action τ α) (b : Action τ' α) : Prop :=
  ∀ s, NotesFrom view fits a b s

variable {view : τ → τ' × List (List Value)} {fits : α → List (List Value) → Prop}
  {goal : β → List (List Value) → Prop}

/-- What one action notes comes before what the next one does. -/
theorem Notes.bind {a : Action τ α} {b : Action τ' α} {f : α → Action τ β} {g : α → Action τ' β}
    (h : Notes view fits a b)
    (hnext : ∀ x before, fits x before →
      Notes view (fun y more => goal y (before ++ more)) (f x) (g x)) :
    Notes view goal (a >>= f) (b >>= g) := by
  intro s
  obtain ⟨hresult, hstate, hnoted⟩ := h s
  cases hx : (a s).1 with
  | error cause =>
      have hb : (b (view s).1).1 = .error cause := hresult.symm.trans hx
      refine ⟨?_, ?_, ?_⟩
      · rw [bind_apply_of_error hx, bind_apply_of_error hb]
      · rw [bind_apply_of_error hx, bind_apply_of_error hb]
        exact hstate
      · rw [bind_apply_of_error hx]
        exact nofun
  | ok x =>
      have hb : (b (view s).1).1 = .ok x := hresult.symm.trans hx
      obtain ⟨before, hbefore, hfits⟩ := hnoted x hx
      obtain ⟨hresult', hstate', hnoted'⟩ := hnext x before hfits (a s).2
      rw [hstate] at hresult' hstate'
      refine ⟨?_, ?_, ?_⟩
      · rw [bind_apply_of_ok hx, bind_apply_of_ok hb]
        exact hresult'
      · rw [bind_apply_of_ok hx, bind_apply_of_ok hb]
        exact hstate'
      · rw [bind_apply_of_ok hx]
        intro y hy
        obtain ⟨more, hmore, hgoal⟩ := hnoted' y hy
        exact ⟨before ++ more, by rw [hmore, hbefore, List.append_assoc], hgoal⟩

/-- The value of an action that notes nothing. -/
def Silent (value : α → Prop) (x : α) (more : List (List Value)) : Prop := value x ∧ more = []

/-- What comes before the next action may note nothing. -/
theorem Notes.bind_silent {value : α → Prop} {a : Action τ α} {b : Action τ' α}
    {f : α → Action τ β} {g : α → Action τ' β} (h : Notes view (Silent value) a b)
    (hnext : ∀ x, value x → Notes view goal (f x) (g x)) : Notes view goal (a >>= f) (b >>= g) := by
  refine h.bind fun x before hx => ?_
  obtain ⟨hvalue, rfl⟩ := hx
  exact hnext x hvalue

theorem Notes.mapValue {a : Action τ α} {b : Action τ' α} {f : α → β}
    (h : Notes view (fun x more => goal (f x) more) a b) :
    Notes view goal (a.mapValue f) (b.mapValue f) := by
  intro s
  obtain ⟨hresult, hstate, hnoted⟩ := h s
  refine ⟨by rw [mapValue_fst, mapValue_fst, hresult], hstate, ?_⟩
  intro y hy
  rw [mapValue_fst] at hy
  cases hx : (a s).1 with
  | error cause =>
      rw [hx] at hy
      cases hy
  | ok x =>
      rw [hx] at hy
      obtain rfl := Except.ok.inj hy
      exact hnoted x hx

theorem notes_pure {x : α} (h : fits x []) :
    Notes view fits (Pure.pure x : Action τ α) (Pure.pure x : Action τ' α) :=
  fun s => ⟨rfl, rfl, fun y hy => by
    obtain rfl := Except.ok.inj hy
    exact ⟨[], (List.append_nil _).symm, h⟩⟩

theorem notes_fail (cause : Error) :
    Notes view fits (fail cause : Action τ α) (fail cause : Action τ' α) :=
  fun _ => ⟨rfl, rfl, nofun⟩

theorem notes_ofOption {cause : Error} {x : Option α} (h : ∀ y, x = some y → fits y []) :
    Notes view fits (ofOption cause x : Action τ α) (ofOption cause x : Action τ' α) := by
  cases x with
  | none => exact notes_fail cause
  | some y => exact notes_pure (h y rfl)

end Action

/-! ### Operations of a repository -/

namespace Session

open EntityService.Action

variable {σ α β : Type}

/-- A session on a noted store: the session on the store inside, and what has been noted. -/
def noted (s : Session (Noted σ)) : Session σ × List (List Value) :=
  (⟨s.repository, s.store.store⟩, s.store.answered)

/-- An operation on a noted store notes answers that fit its value. -/
abbrev Notes (fits : α → List (List Value) → Prop) (a : Action (Session (Noted σ)) α)
    (b : Action (Session σ) α) : Prop :=
  Action.Notes noted fits a b

variable {fits : α → List (List Value) → Prop}

theorem notes_asks (question : Repository → α) :
    Notes (σ := σ) (Silent fun _ => True) (asks question) (asks question) :=
  fun _ => ⟨rfl, rfl, fun _ _ => ⟨[], (List.append_nil _).symm, trivial, rfl⟩⟩

theorem notes_take (use : Repository → α) :
    Notes (σ := σ) (Silent fun _ => True) (take use) (take use) :=
  fun _ => ⟨rfl, rfl, fun _ _ => ⟨[], (List.append_nil _).symm, trivial, rfl⟩⟩

theorem notes_check (data : Record) (mode : Mode) :
    Notes (σ := σ) (Silent fun _ => True) (check data mode) (check data mode) := by
  refine (notes_asks _).bind_silent fun (e : Entity) _ => ?_
  cases violation? e data mode with
  | none => exact notes_pure ⟨trivial, rfl⟩
  | some violation => exact notes_fail _

/-- What an operation answers with is noted. -/
theorem notes_giving {rows : α → List Value} {operation : Action σ α} (h : ∀ x, fits x [rows x]) :
    Notes fits (onStore (Noted.giving rows operation)) (onStore operation) := by
  intro s
  refine ⟨Noted.giving_fst rows operation s.store, ?_, ?_⟩
  · exact congrArg (Session.mk s.repository) (Noted.giving_store rows operation s.store)
  · exact fun x hx => ⟨[rows x], Noted.giving_answered hx, h x⟩

variable [Storage σ]

/-- A row that is looked up is the first one of the answer. -/
theorem notes_find (id : Value) (columns : List String) :
    Notes (σ := σ) (fun row answered => ∃ rows, answered = [rows] ∧ rows.head? = some row)
      (find id columns) (find id columns) := by
  refine (notes_take _).bind_silent fun plan _ => ?_
  have hfirst : Notes (σ := σ) (fun row? answered => ∃ rows, answered = [rows] ∧ rows.head? = row?)
      (onStore (Storage.first plan columns)) (onStore (Storage.first plan columns)) :=
    Notes.mapValue (notes_giving fun rows => ⟨rows, rfl, rfl⟩)
  refine hfirst.bind fun row? before hbefore => ?_
  refine (notes_asks _).bind_silent fun entity _ => ?_
  refine notes_ofOption fun row hrow => ?_
  obtain ⟨rows, rfl, hhead⟩ := hbefore
  exact ⟨rows, List.append_nil _, hhead.trans hrow⟩

theorem notes_all (columns : List String) :
    Notes (σ := σ) (fun rows answered => answered = [rows]) (all columns) (all columns) :=
  (notes_take _).bind_silent fun _ _ => notes_giving fun _ => rfl

theorem notes_search :
    Notes (σ := σ) (fun page answered => answered = [page.rows]) search search := by
  refine (notes_take _).bind_silent fun _ _ => ?_
  refine (notes_asks _).bind_silent fun _ _ => ?_
  refine (notes_asks _).bind_silent fun _ _ => ?_
  exact notes_giving fun _ => rfl

theorem notes_create (data : Record) :
    Notes (σ := σ) (fun row answered => answered = [[row]]) (create data) (create data) := by
  refine (notes_take _).bind_silent fun _ _ => ?_
  refine (notes_check data .create).bind_silent fun _ _ => ?_
  refine (notes_asks _).bind_silent fun _ _ => ?_
  exact notes_giving fun _ => rfl

/-- Rows that are added one after the other are answered one by one. -/
theorem notes_createMultiple (items : List Record) :
    Notes (σ := σ) (fun rows answered => answered.flatten = rows) (createMultiple items)
      (createMultiple items) := by
  induction items with
  | nil => exact notes_pure rfl
  | cons data rest ih =>
      refine (notes_create data).bind fun row before hrow => ?_
      refine ih.bind fun rows after hrows => notes_pure ?_
      rw [List.append_nil, List.flatten_append, hrow, hrows]
      rfl

/-- A row that is changed is looked up before, and answered after the change. -/
theorem notes_updateById (id : Value) (data : Record) (touch : Bool) :
    Notes (σ := σ) (fun row answered => answered.getLast? = some [row]) (updateById id data touch)
      (updateById id data touch) := by
  refine (notes_take _).bind_silent fun _ _ => ?_
  refine (notes_find id []).bind fun _ before _ => ?_
  refine (notes_check data .update).bind_silent fun _ _ => ?_
  refine (notes_asks _).bind_silent fun e _ => ?_
  have hchange : Notes (σ := σ) (fun row? answered => answered = [row?.toList])
      (onStore (Storage.updateByKey e id data touch))
      (onStore (Storage.updateByKey e id data touch)) := notes_giving fun _ => rfl
  refine hchange.bind fun row? after hafter => notes_ofOption fun row hrow => ?_
  rw [List.append_nil, hafter, hrow, Option.toList_some, List.getLast?_concat]

end Session

/-! ### Commands -/

namespace Http

open EntityService.Action

variable {σ α : Type} {m : Model} {fits : α → List (List Value) → Prop}

/-- A noted store: the store inside, and what has been noted. -/
def notedParts (n : Noted σ) : σ × List (List Value) := (n.store, n.answered)

theorem notes_inSession {a : Action (Session (Noted σ)) α} {b : Action (Session σ) α}
    (h : Session.Notes fits a b) (r : Repository) :
    Notes notedParts fits (inSession r a) (inSession r b) := by
  intro n
  obtain ⟨hresult, hstate, hnoted⟩ := h ⟨r, n⟩
  exact ⟨hresult, congrArg Session.store hstate, hnoted⟩

theorem notes_entityFor (segment operation : String) :
    Notes (notedParts (σ := σ)) (Silent fun e => m.entityAt? segment = some e)
      (entityFor m segment operation) (entityFor m segment operation) := by
  have hentity : Notes (notedParts (σ := σ)) (Silent fun e => m.entityAt? segment = some e)
      (ofOption (.notFound (.segment segment)) (m.entityAt? segment))
      (ofOption (.notFound (.segment segment)) (m.entityAt? segment)) :=
    notes_ofOption fun _ he => ⟨he, rfl⟩
  refine hentity.bind_silent fun e he => ?_
  split
  · exact notes_pure ⟨he, rfl⟩
  · exact notes_fail _

theorem notes_accepted (read : Except Fault α) :
    Notes (notedParts (σ := σ)) (Silent fun _ => True) (accepted read) (accepted read) := by
  cases read with
  | ok x => exact notes_pure ⟨trivial, rfl⟩
  | error fault => exact notes_fail _

variable [Storage σ]

/-- A command that gives rows gives those that the store has answered with, as they are shown. -/
theorem notes_run {command : Command} (h : command.givesRows) :
    Notes (notedParts (σ := σ))
      (fun response answered => ∃ e, m.entityAt? command.segment = some e ∧
        response.Gives e answered command.givesAll)
      (command.run m) (command.run m) := by
  cases command with
  | list segment params =>
      refine (notes_entityFor segment "read").bind_silent fun e he => ?_
      dsimp only
      split
      · refine (notes_inSession Session.notes_search _).bind fun page answered h => notes_pure ?_
        exact ⟨e, he, Response.gives_page (by simp [h])⟩
      · refine (notes_inSession (Session.notes_all []) _).bind fun rows answered h => notes_pure ?_
        exact ⟨e, he, Response.gives_many (by simp [h])⟩
  | read segment key params =>
      refine (notes_entityFor segment "read").bind_silent fun e he => ?_
      refine (notes_accepted _).bind_silent fun id _ => ?_
      refine (notes_inSession (Session.notes_find id []) _).bind fun row answered h => notes_pure ?_
      obtain ⟨rows, rfl, hhead⟩ := h
      exact ⟨e, he, Response.gives_one rfl hhead⟩
  | create segment body =>
      refine (notes_entityFor segment "create").bind_silent fun e he => ?_
      refine (notes_accepted _).bind_silent fun data _ => ?_
      refine (notes_inSession (Session.notes_create data) _).bind fun row answered h =>
        notes_pure ?_
      obtain rfl := h
      exact ⟨e, he, Response.gives_one rfl rfl⟩
  | createMany segment body =>
      refine (notes_entityFor segment "bulk_create").bind_silent fun e he => ?_
      refine (notes_accepted _).bind_silent fun items _ => ?_
      refine (notes_inSession (Session.notes_createMultiple items) _).bind fun rows answered h =>
        notes_pure ?_
      exact ⟨e, he, Response.gives_many (by rw [List.append_nil, h])⟩
  | update segment key body =>
      refine (notes_entityFor segment "update").bind_silent fun e he => ?_
      refine (notes_accepted _).bind_silent fun id _ => ?_
      refine (notes_accepted _).bind_silent fun data _ => ?_
      refine (notes_inSession (Session.notes_updateById id data true) _).bind fun row answered h =>
        notes_pure ?_
      exact ⟨e, he, Response.gives_one (by rw [List.append_nil, h]) rfl⟩
  | deleteMany segment body => cases h
  | delete segment key body => cases h

end Http

/-! ### Requests -/

section Requests

variable {σ : Type} [Storage σ]

/-- Whatever rows a store answers with, a request for rows fails, or is answered with them as they
are shown: without the members whose keys are never shown, and otherwise as they are, in their
order.  To note the rows changes nothing. -/
theorem answered_rows_are_redacted {service : Service} {r : Request} {command : Command}
    (horder : service.orderOf r = .entity command) (hrows : command.givesRows) (store : σ) :
    let noted := service.answer r ({ store } : Noted σ)
    (noted.1 = (service.answer r store).1 ∧ noted.2.store = (service.answer r store).2) ∧
      ((400 ≤ noted.1.status ∧ noted.1.data? = none) ∨
        ∃ e, r.entity? service.model = some e ∧
          noted.1.Gives e noted.2.answered command.givesAll) := by
  intro noted
  have hanswer {τ : Type} [Storage τ] (s : τ) :
      service.answer r s = service.carryOut (.entity command) s := by
    rw [← horder]
    exact answer_of_ne_head (method_ne_head_of_orderOf horder) service s
  obtain ⟨hresult, hstate, hgives⟩ := notes_run (m := service.model) hrows ({ store } : Noted σ)
  simp only [noted, hanswer, entity?_of_orderOf horder, carryOut_entity_fst, carryOut_entity_snd]
  refine ⟨⟨by rw [hresult]; rfl, hstate⟩, ?_⟩
  cases hrun : (command.run service.model ({ store } : Noted σ)).1 with
  | error cause => exact .inl ⟨le_errorResponse_status cause, Response.data?_errorResponse cause⟩
  | ok response =>
      obtain ⟨answered, hanswered, e, he, hgiven⟩ := hgives response hrun
      -- nothing had been noted before the request
      have hall : (command.run service.model ({ store } : Noted σ)).2.answered = answered :=
        hanswered
      rw [hall]
      exact .inr ⟨e, he, hgiven⟩

end Requests

/-! ### Authors in a database -/

namespace Bookshop

/-- A service for the bookshop. -/
def shop : Service := ⟨model, true⟩

/-- A database that is going to reply with one author, under column names that are repeated. -/
def careless : Database where
  model := model
  link := .replies [.rows {
    columns := [("id", "int8"), ("secret", "text"), ("name", "text"), ("secret", "text"),
      ("name", "text"), ("age", "int4")]
    cells := [[.ofInt 1, .string "wizard", .string "West", .string "school", .string "North",
      .null]] }]

/-- A request for all authors. -/
def allAuthors : Request := ⟨"GET", .read "/api/v1/authors?paginate=false", none, ""⟩

end Bookshop

open Bookshop in
/-- The database answers with the secret as well; it is not shown, under either name. -/
theorem answered_rows_are_redacted_authors :
    let noted := shop.answer allAuthors ({ store := careless } : Noted Database)
    noted.2.answered.flatten.map Value.text =
        ["\x7b\"age\":null,\"id\":1,\"name\":\"North\",\"secret\":\"school\"\x7d"] ∧
      noted.1.data?.map Value.text =
        some "[\x7b\"age\":null,\"id\":1,\"name\":\"North\"\x7d]" ∧
      ∃ shown, noted.1.data? = some (.array shown) ∧
        List.Forall₂ authors.Redacts noted.2.answered.flatten shown := by
  have horder : shop.orderOf allAuthors = .entity (.list "authors" allAuthors.params) := by rfl
  have hsucceeds :
      ¬400 ≤ (shop.answer allAuthors ({ store := careless } : Noted Database)).1.status := by
    decide +kernel
  refine ⟨by decide +kernel, by decide +kernel, ?_⟩
  obtain ⟨-, hgives⟩ := answered_rows_are_redacted horder rfl careless
  obtain ⟨e, he, hgives⟩ := hgives.resolve_left fun hfailed => hsucceeds hfailed.1
  obtain rfl : authors = e := Option.some.inj he
  exact hgives

end EntityService
