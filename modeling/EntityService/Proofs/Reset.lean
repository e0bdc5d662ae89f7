import EntityService.Proofs.Bookshop
import EntityService.Repository.Run

/-!
# What is pending after an operation

An operation takes what is pending and leaves nothing but the gate of the entity, whatever the
store answers.  There is one exception: to add no rows at all is to do nothing at all.

## Main definitions

* `Session.Drains` — an operation leaves nothing pending, whether it fails or not
* `Session.Settles` — an operation leaves nothing pending where nothing was
* `Repository.IsOf` — a repository of an entity, whatever has been asked of it

## Main results

* `Terminal.run_drains` — every operation but one leaves nothing pending
* `run_isOf` — a run never changes the entity, the model and the gate of its repository
* `pending_eq_fresh_after_terminal_iff` — what is pending after a run that ends with an operation

## Design notes

The operations are sequences of small ones, each of which may fail.  An operation drains as soon as
its first part does, provided that all the others settle: whichever of them fails, the repository
is the one that the first part has left.
-/

namespace EntityService

open EntityService.Json EntityService.Model EntityService.Query EntityService.Store
open EntityService.Validation

/-! ## Repositories with nothing pending -/

namespace Repository

@[simp] theorem drained_drained (r : Repository) : r.drained.drained = r.drained := rfl

/-- The repository belongs to an entity of a model, and its gate is the one of the entity. -/
structure IsOf (m : Model) (e : Entity) (r : Repository) : Prop where
  model_eq : r.model = m
  entity_eq : r.entity = e
  gate_eq : r.pending.gate = e.activeFlag.map ActiveFlag.gate

theorem isOf_of (m : Model) (e : Entity) : IsOf m e (Repository.of m e) := ⟨rfl, rfl, rfl⟩

/-- What is asked for may change all of a pending state but its gate. -/
theorem IsOf.ask {m : Model} {e : Entity} {r : Repository} (h : IsOf m e r)
    {change : Pending → Pending} (hgate : (change r.pending).gate = r.pending.gate) :
    IsOf m e (r.ask change) :=
  ⟨h.model_eq, h.entity_eq, hgate.trans h.gate_eq⟩

theorem IsOf.drained {m : Model} {e : Entity} {r : Repository} (h : IsOf m e r) :
    IsOf m e r.drained :=
  h.ask rfl

theorem IsOf.apply {m : Model} {e : Entity} {r : Repository} (h : IsOf m e r) (a : Ask) :
    IsOf m e (a.apply r) := by
  cases a with
  | loadRequested =>
      change IsOf m e r.loadRequested
      rcases r.loadRequested_eq_or with heq | heq
      · rw [heq]
        exact h
      · rw [heq]
        exact h.ask rfl
  | _ => exact ⟨h.model_eq, h.entity_eq, h.gate_eq⟩

/-- Without what is pending, a repository is a new one with the parameters of its request. -/
theorem IsOf.drained_eq {m : Model} {e : Entity} {r : Repository} (h : IsOf m e r) :
    r.drained = (Repository.of m e).withParams r.params := by
  obtain ⟨rfl, rfl, hgate⟩ := h
  simp only [Repository.drained, Repository.ask, Repository.of, withParams, Pending.drained,
    Pending.fresh, hgate]

/-- With nothing pending there is nothing to drain. -/
theorem IsOf.drained_eq_self {m : Model} {e : Entity} {r : Repository} (h : IsOf m e r)
    (hpending : r.pending = .fresh e.activeFlag) : r.drained = r := by
  have hdrained : r.drained.pending = .fresh e.activeFlag := by
    rw [h.drained_eq]
    rfl
  rw [← hpending] at hdrained
  obtain ⟨model, entity, params, pending⟩ := r
  exact congrArg (Repository.mk model entity params) hdrained

end Repository

theorem Ask.params_apply (a : Ask) (r : Repository) :
    (a.apply r).params = a.paramsAfter r.params := by
  cases a with
  | loadRequested =>
      change r.loadRequested.params = r.params
      rcases r.loadRequested_eq_or with h | h <;> rw [h]
      rfl
  | _ => rfl

/-! ## Operations that leave nothing pending -/

namespace Session

variable {σ α β : Type}

/-- An operation leaves nothing pending, whether it fails or not. -/
def Drains (a : Action (Session σ) α) : Prop :=
  ∀ s, (a s).2.repository = s.repository.drained

/-- An operation leaves nothing pending where nothing was pending. -/
def Settles (a : Action (Session σ) α) : Prop :=
  ∀ s, s.repository.drained = s.repository → (a s).2.repository = s.repository

theorem Drains.settles {a : Action (Session σ) α} (h : Drains a) : Settles a :=
  fun s hs => (h s).trans hs

theorem Settles.bind {a : Action (Session σ) α} {next : α → Action (Session σ) β}
    (ha : Settles a) (hnext : ∀ x, Settles (next x)) : Settles (a >>= next) := by
  intro s hs
  cases h : (a s).1 with
  | error cause =>
      rw [Action.bind_apply_of_error h]
      exact ha s hs
  | ok x =>
      rw [Action.bind_apply_of_ok h, hnext x _ (by rw [ha s hs, hs]), ha s hs]

theorem Drains.bind {a : Action (Session σ) α} {next : α → Action (Session σ) β}
    (ha : Drains a) (hnext : ∀ x, Settles (next x)) : Drains (a >>= next) := by
  intro s
  cases h : (a s).1 with
  | error cause =>
      rw [Action.bind_apply_of_error h]
      exact ha s
  | ok x =>
      rw [Action.bind_apply_of_ok h, hnext x _ (by rw [ha s, Repository.drained_drained]), ha s]

theorem Drains.mapValue {a : Action (Session σ) α} (h : Drains a) (f : α → β) :
    Drains (a.mapValue f) :=
  fun s => h s

theorem drains_take (use : Repository → α) : Drains (σ := σ) (take use) := fun _ => rfl

theorem drains_reset : Drains (σ := σ) reset := fun _ => rfl

theorem settles_onStore (operation : Action σ α) : Settles (onStore operation) := fun _ _ => rfl

theorem settles_asks (question : Repository → α) : Settles (σ := σ) (asks question) :=
  fun _ _ => rfl

theorem settles_pure (a : α) : Settles (σ := σ) (pure a) := fun _ _ => rfl

theorem settles_fail (cause : Error) : Settles (σ := σ) (α := α) (Action.fail cause) :=
  fun _ _ => rfl

theorem settles_ofOption (cause : Error) (a : Option α) :
    Settles (σ := σ) (Action.ofOption cause a) := by
  cases a with
  | none => exact settles_fail cause
  | some a => exact settles_pure a

theorem settles_check (data : Record) (mode : Mode) : Settles (σ := σ) (check data mode) := by
  refine (settles_asks _).bind fun e => ?_
  cases violation? e data mode with
  | none => exact settles_pure ()
  | some violation => exact settles_fail _

/-! ### The operations -/

/-- To take something and hand it to the store drains, whatever the store does with it. -/
theorem drains_take_onStore (use : Repository → α) (operation : α → Action σ β) :
    Drains (take use >>= fun x => onStore (operation x)) :=
  (drains_take use).bind fun x => settles_onStore (operation x)

variable [Storage σ]

theorem drains_find (id : Value) (columns : List String) :
    Drains (σ := σ) (find id columns) := by
  refine (drains_take _).bind fun plan => ?_
  refine (settles_onStore _).bind fun row => ?_
  exact (settles_asks _).bind fun _ => settles_ofOption _ row

theorem drains_first (columns : List String) : Drains (σ := σ) (first columns) := by
  refine (drains_take _).bind fun plan => ?_
  refine (settles_onStore _).bind fun row => ?_
  exact (settles_asks _).bind fun _ => settles_ofOption _ row

theorem drains_paginate (size : Option Nat) (columns : List String) (pageKey : String)
    (page : Option Nat) : Drains (σ := σ) (paginate size columns pageKey page) := by
  refine (drains_take _).bind fun plan => ?_
  refine (settles_asks _).bind fun perPage => ?_
  exact (settles_asks _).bind fun number => settles_onStore _

theorem drains_search : Drains (σ := σ) search := by
  refine (drains_take _).bind fun plan => ?_
  refine (settles_asks _).bind fun perPage => ?_
  exact (settles_asks _).bind fun number => settles_onStore _

theorem drains_create (data : Record) : Drains (σ := σ) (create data) := by
  refine drains_reset.bind fun _ => ?_
  refine (settles_check data .create).bind fun _ => ?_
  exact (settles_asks _).bind fun e => settles_onStore _

/-- To add rows one after the other is to settle: the first one drains, and with no rows nothing
happens. -/
theorem settles_createMultiple (items : List Record) :
    Settles (σ := σ) (createMultiple items) := by
  induction items with
  | nil => exact settles_pure []
  | cons data rest ih =>
      refine (drains_create data).settles.bind fun row => ?_
      exact ih.bind fun rows => settles_pure _

theorem drains_createMultiple {items : List Record} (h : items ≠ []) :
    Drains (σ := σ) (createMultiple items) := by
  cases items with
  | nil => exact absurd rfl h
  | cons data rest =>
      -- the first row drains, and the others find nothing pending
      refine (drains_create data).bind fun row => ?_
      exact (settles_createMultiple rest).bind fun rows => settles_pure _

theorem drains_updateById (id : Value) (data : Record) (touch : Bool) :
    Drains (σ := σ) (updateById id data touch) := by
  refine drains_reset.bind fun _ => ?_
  refine (drains_find id []).settles.bind fun _ => ?_
  refine (settles_check data .update).bind fun _ => ?_
  refine (settles_asks _).bind fun e => ?_
  exact (settles_onStore _).bind fun row => settles_ofOption _ row

theorem drains_deleteById (id : Value) : Drains (σ := σ) (deleteById id) := by
  refine drains_reset.bind fun _ => ?_
  refine (drains_find id []).settles.bind fun _ => ?_
  refine (drains_take _).settles.bind fun plan => ?_
  exact (settles_onStore _).bind fun count => settles_pure _

theorem drains_deleteMultipleById (ids : List Value) :
    Drains (σ := σ) (deleteMultipleById ids) := by
  refine drains_reset.bind fun _ => ?_
  split
  · exact settles_pure 0
  · exact (settles_asks _).bind fun plan => settles_onStore _

end Session

variable {σ : Type} [Storage σ]

/-- Every operation leaves nothing pending, except the one that adds no rows. -/
theorem Terminal.run_drains {t : Terminal} (h : t ≠ .createMultiple []) :
    Session.Drains (σ := σ) t.run := by
  cases t with
  | all columns => exact (Session.drains_take_onStore _ _).mapValue _
  | get columns => exact (Session.drains_take_onStore _ _).mapValue _
  | first columns => exact (Session.drains_first columns).mapValue _
  | find id columns => exact (Session.drains_find id columns).mapValue _
  | findBy column value columns => exact (Session.drains_take_onStore _ _).mapValue _
  | create data => exact (Session.drains_create data).mapValue _
  | createMultiple items =>
      have hitems : items ≠ [] := fun hnil => h (congrArg Terminal.createMultiple hnil)
      exact (Session.drains_createMultiple hitems).mapValue _
  | updateById id data touch => exact (Session.drains_updateById id data touch).mapValue _
  | deleteById id => exact (Session.drains_deleteById id).mapValue _
  | deleteMultipleById ids => exact (Session.drains_deleteMultipleById ids).mapValue _
  | paginate size columns pageKey page =>
      exact (Session.drains_paginate size columns pageKey page).mapValue _
  | search => exact Session.drains_search.mapValue _
  | count => exact (Session.drains_take_onStore _ _).mapValue _
  | delete => exact (Session.drains_take_onStore _ _).mapValue _

/-- After an operation the repository is the same one, with or without what was pending. -/
theorem Terminal.repository_run (t : Terminal) (s : Session σ) :
    (t.run s).2.repository = s.repository ∨
      (t.run s).2.repository = s.repository.drained := by
  by_cases h : t = .createMultiple []
  · subst h
    exact .inl rfl
  · exact .inr (Terminal.run_drains h s)

/-! ## Runs -/

theorem Step.isOf_after {m : Model} {e : Entity} {s : Session σ}
    (h : s.repository.IsOf m e) (step : Step) : (step.after s).repository.IsOf m e := by
  cases step with
  | ask a => exact h.apply a
  | terminal t =>
      change (t.run s).2.repository.IsOf m e
      rcases t.repository_run s with heq | heq
      · rw [heq]
        exact h
      · rw [heq]
        exact h.drained

/-- A run never changes the entity, the model and the gate of its repository. -/
theorem run_isOf {m : Model} {e : Entity} (steps : List Step) {s : Session σ}
    (h : s.repository.IsOf m e) : (run steps s).repository.IsOf m e := by
  induction steps generalizing s with
  | nil => exact h
  | cons step steps ih => exact ih (step.isOf_after h)

/-- The parameters of a repository are those of the last request attached to it. -/
theorem params_run (steps : List Step) (s : Session σ) :
    (run steps s).repository.params = paramsInForce steps s.repository.params := by
  induction steps generalizing s with
  | nil => rfl
  | cons step steps ih =>
      have hstep : (step.after s).repository.params =
          paramsInForce [step] s.repository.params := by
        cases step with
        | ask a => exact a.params_apply s.repository
        | terminal t =>
            change (t.run s).2.repository.params = s.repository.params
            rcases t.repository_run s with heq | heq <;> rw [heq]
            rfl
      change (run steps (step.after s)).repository.params = _
      rw [ih, hstep]
      rfl

omit [Storage σ] in
theorem repository_asked (asks : List Ask) (s : Session σ) :
    (asks.foldl Session.asked s).repository =
      asks.foldl (fun r a => a.apply r) s.repository := by
  induction asks generalizing s with
  | nil => rfl
  | cons a asks ih => exact ih (s.asked a)

/-- After an operation nothing but the gate of the entity is pending, exactly unless the operation
adds no rows and something was pending before.  With nothing pending, whatever is asked for next
gives the repository that a new one gives with the parameters in force: nothing of what was asked
before the operation is left in it. -/
theorem pending_eq_fresh_after_terminal_iff (m : Model) (e : Entity) (store : σ)
    (steps : List Step) (t : Terminal) :
    let before := run steps ⟨Repository.of m e, store⟩
    let after := (t.run before).2
    (after.repository.pending = .fresh e.activeFlag ↔
      t ≠ .createMultiple [] ∨ before.repository.pending = .fresh e.activeFlag) ∧
    (after.repository.pending = .fresh e.activeFlag → ∀ asks : List Ask,
      (asks.foldl Session.asked after).repository =
        asks.foldl (fun r a => a.apply r)
          ((Repository.of m e).withParams (paramsInForce steps .empty))) := by
  intro before after
  have hbefore : before.repository.IsOf m e := run_isOf steps (Repository.isOf_of m e)
  have hparams : before.repository.params = paramsInForce steps .empty :=
    params_run steps ⟨Repository.of m e, store⟩
  have hdrained : t ≠ .createMultiple [] →
      after.repository = before.repository.drained := fun ht => Terminal.run_drains ht before
  constructor
  · constructor
    · intro hfresh
      by_cases ht : t = .createMultiple []
      · -- the state after it is the state before it
        subst ht
        exact .inr hfresh
      · exact .inl ht
    · rintro (ht | hfresh)
      · rw [hdrained ht, hbefore.drained_eq]
        rfl
      · rcases t.repository_run before with heq | heq
        · rw [show after.repository = before.repository from heq]
          exact hfresh
        · rw [show after.repository = before.repository.drained from heq, hbefore.drained_eq]
          rfl
  · intro hfresh asks
    -- with nothing pending the exception drains as well
    have hafter : after.repository = before.repository.drained := by
      rcases t.repository_run before with heq | heq
      · have hpending : before.repository.pending = .fresh e.activeFlag := heq ▸ hfresh
        exact heq.trans (hbefore.drained_eq_self hpending).symm
      · exact heq
    rw [repository_asked, hafter, hbefore.drained_eq, hparams]

/-- After looking for a missing row nothing of an earlier filter is left. -/
theorem pending_eq_fresh_after_find :
    let steps := [Step.ask (.filter "title" (.string "Lathe"))]
    let before := run steps ⟨Repository.of Bookshop.model Bookshop.books, Bookshop.store ""⟩
    let after := ((Terminal.find (.ofInt 99) []).run before).2
    after.repository.pending = .fresh Bookshop.books.activeFlag ∧
      ([Ask.limit 1].foldl Session.asked after).repository =
        [Ask.limit 1].foldl (fun r a => a.apply r)
          ((Repository.of Bookshop.model Bookshop.books).withParams
            (paramsInForce steps .empty)) := by
  intro steps before after
  have h := pending_eq_fresh_after_terminal_iff Bookshop.model Bookshop.books (Bookshop.store "")
    steps (.find (.ofInt 99) [])
  have hfresh := h.1.mpr (.inl (by simp))
  exact ⟨hfresh, h.2 hfresh [.limit 1]⟩

/-- A filter that is pending when no rows are added stays pending, and restricts the rows that the
next operation counts. -/
theorem pending_ne_fresh_after_createMultiple_nil :
    let before := run [.ask (.filter "title" (.string "Lathe"))]
      ⟨Repository.of Bookshop.model Bookshop.books, Bookshop.store ""⟩
    let after := ((Terminal.createMultiple []).run before).2
    after.repository.pending ≠ .fresh Bookshop.books.activeFlag ∧
      after.repository.pendingPlan.calls.filters =
        [.compare "is_active" .eq (.ofInt 1), .compare "title" .eq (.string "Lathe")] := by
  intro before after
  constructor
  · intro h
    have hclauses : after.repository.pending.clauses = [] := congrArg Pending.clauses h
    have hfilter : after.repository.pending.clauses = [.equality "title" (.string "Lathe")] := rfl
    rw [hfilter] at hclauses
    cases hclauses
  · rfl

end EntityService
