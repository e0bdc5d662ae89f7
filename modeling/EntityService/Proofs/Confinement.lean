import EntityService.Proofs.Handling
import EntityService.Proofs.Reset
import EntityService.Store.Watched

/-!
# What plans may contain

Every plan that a repository hands to its store is about its entity, passes the gate of the entity
first, and filters by nothing but what was asked for, what the operation is about, and what a
request may filter by.

## Main definitions

* `Plan.Confined` — the shape of the plans for an entity, with the filters that are allowed
* `MayFilter` — what the filters of an operation after a run come from
* `plansOf` — the plans that an operation hands to its store
* `Session.Mirrors` — an operation on a watched store, next to the same one on the store itself

## Main results

* `Terminal.run_mirrors` — the plans of each operation are confined, and watching changes nothing
* `plansOf_confined` — the same after any run, and for the requests of lists

## Design notes

The plans that an operation hands out may depend on what the store has answered before, so they are
observed on a watched store.  An operation is proved to be confined part by part, under an invariant
of the repository that holds after every run: its pending clauses are among those that the run has
pushed.  Since an operation may drain its repository before it makes a plan, the invariant has to be
one that draining keeps.
-/

namespace EntityService

open EntityService.Json EntityService.Model EntityService.Query EntityService.Store
open EntityService.Validation

/-! ## The shape of plans -/

/-- The filter that lets the rows in use pass; there is none without an active flag. -/
def Model.Entity.gateCalls (e : Entity) : List Call :=
  (e.activeFlag.map fun flag => Call.compare flag.column .eq flag.value).toList

/-- A plan for an entity: first orders, then relations to load and to count, then the gate and the
other filters, then limits.  All filters but the gate are allowed ones. -/
structure Model.Plan.Confined (e : Entity) (allowed : Call → Prop) (p : Plan) : Prop where
  entity_eq : p.entity = e
  calls_eq : ∃ (sorts : List SortKey) (loads counts : List String) (filters : List Call)
    (limits : List Nat),
    p.calls = sorts.map Call.ofSort ++ loads.map Call.load ++ counts.map Call.count ++
      (e.gateCalls ++ filters) ++ limits.map Call.take ∧
    ∀ call ∈ filters, call.isFilter ∧ allowed call

/-- The conditions that an operation adds by itself. -/
def Terminal.conditions (e : Entity) : Terminal → List Call
  | find id _ => [.compare e.primaryKey .eq id]
  | findBy column value _ => [.compare column .eq value]
  | updateById id _ _ => [.compare e.primaryKey .eq id]
  | deleteById id => [.compare e.primaryKey .eq id]
  | deleteMultipleById ids => [.oneOf e.primaryKey ids false]
  | _ => []

/-- An operation that reads the filters of the request. -/
def Terminal.readsRequest : Terminal → Bool
  | all _ => true
  | search => true
  | _ => false

/-- An operation that reads the request has no condition of its own. -/
theorem Terminal.conditions_eq_nil {t : Terminal} (h : t.readsRequest) (e : Entity) :
    t.conditions e = [] := by
  cases t with
  | all columns => rfl
  | search => rfl
  | _ => simp [readsRequest] at h

/-- What a filter of an operation after a run comes from: a clause that the run has pushed, the
operation itself, or a parameter of the request whose column a request may filter by. -/
inductive MayFilter (e : Entity) (steps : List Step) (t : Terminal) : Call → Prop
  | pushed {clause : Clause} (mem : clause ∈ pushedClauses steps) :
      MayFilter e steps t (.ofClause clause)
  | own {call : Call} (mem : call ∈ t.conditions e) : MayFilter e steps t call
  | requested {key value : String} {clause : Clause} (reads : t.readsRequest)
      (param : (key, value) ∈ (paramsInForce steps .empty).pairs)
      (mem : clause ∈ clausesOfParam e.filterable key value)
      (listed : e.filterable.contains clause.column) :
      MayFilter e steps t (.ofClause clause)

/-- A call more at the end of a plan, if it is a limit, leaves it confined. -/
theorem Model.Plan.Confined.add_take {e : Entity} {allowed : Call → Prop} {p : Plan}
    (h : p.Confined e allowed) (limit : Nat) : (p.add (.take limit)).Confined e allowed := by
  obtain ⟨hentity, sorts, loads, counts, filters, limits, hcalls, hfilters⟩ := h
  refine ⟨hentity, sorts, loads, counts, filters, limits ++ [limit], ?_, hfilters⟩
  simp only [Plan.add, hcalls, List.map_append, List.map_cons, List.map_nil, List.append_assoc]

/-- The calls of a state with the gate of an entity make a confined plan for it, provided that its
clauses and those of the request are allowed. -/
theorem confined_compose {e : Entity} {allowed : Call → Prop} {state : Pending}
    (hgate : state.gate = e.activeFlag.map ActiveFlag.gate) (inclusion : Inclusion)
    (sorts : List SortKey) {clauses : List Clause}
    (hallowed : ∀ clause ∈ state.clauses ++ clauses, allowed (.ofClause clause)) :
    Plan.Confined e allowed ⟨e, compose state inclusion sorts clauses⟩ := by
  have hgateCalls : state.gate.toList.map Call.ofClause = e.gateCalls := by
    rw [hgate, Entity.gateCalls]
    cases e.activeFlag <;> rfl
  refine ⟨rfl, sorts ++ state.sorts, state.relations ++ inclusion.relations, inclusion.counts,
    (state.clauses ++ clauses).map Call.ofClause, state.limit.toList, ?_, ?_⟩
  · simp only [compose, Pending.allClauses, ← hgateCalls, List.map_append, List.append_assoc]
  · intro call hcall
    obtain ⟨clause, hclause, rfl⟩ := List.mem_map.mp hcall
    exact ⟨Call.isFilter_ofClause clause, hallowed clause hclause⟩

/-- The filters of a confined plan are the gate, then allowed ones. -/
theorem Model.Plan.Confined.filters_eq {e : Entity} {allowed : Call → Prop} {p : Plan}
    (h : p.Confined e allowed) :
    ∃ rest, p.calls.filters = e.gateCalls ++ rest ∧ ∀ call ∈ rest, allowed call := by
  obtain ⟨-, sorts, loads, counts, filters, limits, hcalls, hfilters⟩ := h
  refine ⟨filters, ?_, fun call hcall => (hfilters call hcall).2⟩
  have hgate : e.gateCalls.filter (·.isFilter) = e.gateCalls := by
    rw [Entity.gateCalls]
    cases e.activeFlag <;> rfl
  have hrest : filters.filter (·.isFilter) = filters :=
    List.filter_eq_self.mpr fun call hcall => (hfilters call hcall).1
  rw [Calls.filters, hcalls]
  simp only [List.filter_append, hgate, hrest,
    Call.filter_isFilter_eq_nil Call.isFilter_ofSort,
    Call.filter_isFilter_eq_nil Call.isFilter_load,
    Call.filter_isFilter_eq_nil Call.isFilter_count,
    Call.filter_isFilter_eq_nil Call.isFilter_take,
    List.nil_append, List.append_nil]

/-! ## The plans of a repository -/

/-- What a run leaves in its repository: the entity with its gate, the parameters in force, and
clauses that the run has pushed. -/
structure Repository.After (m : Model) (e : Entity) (steps : List Step) (r : Repository) : Prop
    extends r.IsOf m e where
  params_eq : r.params = paramsInForce steps .empty
  clauses_mem : ∀ clause ∈ r.pending.clauses, clause ∈ pushedClauses steps

namespace Repository.After

variable {m : Model} {e : Entity} {steps : List Step} {t : Terminal} {r : Repository}

theorem drained (h : r.After m e steps) : r.drained.After m e steps where
  toIsOf := h.toIsOf.drained
  params_eq := h.params_eq
  clauses_mem := fun _ hclause => nomatch hclause

theorem pendingPlan (h : r.After m e steps) :
    r.pendingPlan.Confined e (MayFilter e steps t) := by
  rw [Repository.pendingPlan, planOf, h.entity_eq]
  refine confined_compose h.gate_eq _ _ fun clause hclause => ?_
  rw [List.append_nil] at hclause
  exact .pushed (h.clauses_mem clause hclause)

theorem valuePlan (h : r.After m e steps) {column : String} {value : Value}
    (hown : .compare column .eq value ∈ t.conditions e) :
    (r.valuePlan column value).Confined e (MayFilter e steps t) := by
  have hgate : (r.pending.eagerLoads.addClause (.equality column value)).gate =
      e.activeFlag.map ActiveFlag.gate := h.gate_eq
  rw [Repository.valuePlan, planOf, h.entity_eq]
  refine confined_compose hgate _ _ fun clause hclause => ?_
  obtain rfl : clause = .equality column value := by
    simpa [Pending.eagerLoads, Pending.ofGate, Pending.addClause] using hclause
  exact .own hown

theorem keyPlan (h : r.After m e steps) {id : Value}
    (hown : .compare e.primaryKey .eq id ∈ t.conditions e) :
    (r.keyPlan id).Confined e (MayFilter e steps t) := by
  rw [Repository.keyPlan]
  exact h.valuePlan (by rwa [h.entity_eq])

theorem keysPlan (h : r.After m e steps) {ids : List Value}
    (hown : .oneOf e.primaryKey ids false ∈ t.conditions e) :
    (r.keysPlan ids).Confined e (MayFilter e steps t) := by
  rw [Repository.keysPlan, planOf, h.entity_eq]
  refine confined_compose rfl _ _ fun clause hclause => ?_
  obtain rfl : clause = .membership e.primaryKey ids false := by
    simpa [Pending.fresh, Pending.ofGate, Pending.addClause] using hclause
  exact .own hown

/-- The filters of the request are about columns that a request may filter by. -/
theorem mayFilter_of_requested (h : r.After m e steps) (hreads : t.readsRequest) {clause : Clause}
    (hclause : clause ∈ r.requestedClauses) : MayFilter e steps t (.ofClause clause) := by
  rw [requestedClauses, resolveFilters, h.entity_eq, h.params_eq, List.mem_flatMap] at hclause
  obtain ⟨⟨key, value⟩, hparam, hmem⟩ := hclause
  exact .requested hreads hparam hmem (contains_of_mem_clausesOfParam hmem)

theorem requestPlanOf (h : r.After m e steps) (hreads : t.readsRequest) {state : Pending}
    (hgate : state.gate = r.pending.gate)
    (hclauses : ∀ clause ∈ state.clauses, clause ∈ r.pending.clauses) :
    (r.requestPlanOf state).Confined e (MayFilter e steps t) := by
  rw [Repository.requestPlanOf, h.entity_eq]
  refine confined_compose (hgate.trans h.gate_eq) _ _ fun clause hclause => ?_
  rcases List.mem_append.mp hclause with hstate | hrequested
  · exact .pushed (h.clauses_mem clause (hclauses clause hstate))
  · exact h.mayFilter_of_requested hreads hrequested

end Repository.After

/-! ## Watched operations -/

namespace Session

variable {σ α β : Type}

/-- The session without the watch on its store. -/
def unwatched (s : Session (Watched σ)) : Session σ := ⟨s.repository, s.store.store⟩

/-- The session with a watch on its store. -/
def watched (s : Session σ) : Session (Watched σ) := ⟨s.repository, ⟨s.store, []⟩⟩

/-- An operation on a watched store next to the same one on the store itself, from a session whose
repository satisfies an invariant: the two do the same, the invariant is kept, the plans that are
noted satisfy a condition, and so does the value at the end. -/
structure MirrorsFrom (inv : Repository → Prop) (noted : Plan → Prop) (value : α → Prop)
    (a : Action (Session (Watched σ)) α) (b : Action (Session σ) α) (s : Session (Watched σ)) :
    Prop where
  result_eq : (a s).1 = (b s.unwatched).1
  session_eq : (a s).2.unwatched = (b s.unwatched).2
  inv_kept : inv (a s).2.repository
  noted_all : ∀ p ∈ (a s).2.store.handed, p ∈ s.store.handed ∨ noted p
  value_ok : ∀ x, (a s).1 = .ok x → value x

/-- The same from every session whose repository satisfies the invariant. -/
def Mirrors (inv : Repository → Prop) (noted : Plan → Prop) (value : α → Prop)
    (a : Action (Session (Watched σ)) α) (b : Action (Session σ) α) : Prop :=
  ∀ s, inv s.repository → MirrorsFrom inv noted value a b s

variable {inv : Repository → Prop} {noted : Plan → Prop} {value : α → Prop}

theorem Mirrors.bind {next : β → Prop} {a : Action (Session (Watched σ)) α}
    {b : Action (Session σ) α} {f : α → Action (Session (Watched σ)) β}
    {g : α → Action (Session σ) β} (h : Mirrors inv noted value a b)
    (hnext : ∀ x, value x → Mirrors inv noted next (f x) (g x)) :
    Mirrors inv noted next (a >>= f) (b >>= g) := by
  intro s hs
  obtain ⟨hresult, hsession, hinv, hnoted, hvalue⟩ := h s hs
  cases hx : (a s).1 with
  | error cause =>
      -- both sides end here, with the same error in the same session
      have hb : (b s.unwatched).1 = .error cause := hresult.symm.trans hx
      refine ⟨?_, ?_, ?_, ?_, ?_⟩
      · rw [Action.bind_apply_of_error hx, Action.bind_apply_of_error hb]
      · rw [Action.bind_apply_of_error hx, Action.bind_apply_of_error hb]
        exact hsession
      · rw [Action.bind_apply_of_error hx]
        exact hinv
      · rw [Action.bind_apply_of_error hx]
        exact hnoted
      · rw [Action.bind_apply_of_error hx]
        exact fun _ hok => nomatch hok
  | ok x =>
      have hb : (b s.unwatched).1 = .ok x := hresult.symm.trans hx
      obtain ⟨hresult', hsession', hinv', hnoted', hvalue'⟩ := hnext x (hvalue x hx) (a s).2 hinv
      rw [hsession] at hresult' hsession'
      refine ⟨?_, ?_, ?_, ?_, ?_⟩
      · rw [Action.bind_apply_of_ok hx, Action.bind_apply_of_ok hb]
        exact hresult'
      · rw [Action.bind_apply_of_ok hx, Action.bind_apply_of_ok hb]
        exact hsession'
      · rw [Action.bind_apply_of_ok hx]
        exact hinv'
      · rw [Action.bind_apply_of_ok hx]
        intro p hp
        -- what the second part notes comes after what the first one has noted
        rcases hnoted' p hp with hbefore | hp
        · exact hnoted p hbefore
        · exact .inr hp
      · rw [Action.bind_apply_of_ok hx]
        exact hvalue'

theorem Mirrors.mapValue {a : Action (Session (Watched σ)) α} {b : Action (Session σ) α}
    (h : Mirrors inv noted value a b) (f : α → β) :
    Mirrors inv noted (fun _ => True) (a.mapValue f) (b.mapValue f) := by
  intro s hs
  obtain ⟨hresult, hsession, hinv, hnoted, -⟩ := h s hs
  refine ⟨?_, hsession, hinv, hnoted, fun _ _ => trivial⟩
  change (a s).1.map f = (b s.unwatched).1.map f
  rw [hresult]

theorem mirrors_pure {x : α} (hx : value x) :
    Mirrors (σ := σ) inv noted value (pure x) (pure x) :=
  fun _ hs => ⟨rfl, rfl, hs, fun _ => .inl, fun _ hy => by cases hy; exact hx⟩

theorem mirrors_fail (cause : Error) :
    Mirrors (σ := σ) inv noted value (Action.fail cause) (Action.fail cause) :=
  fun _ hs => ⟨rfl, rfl, hs, fun _ => .inl, fun _ hy => nomatch hy⟩

theorem mirrors_ofOption (cause : Error) (x : Option α) :
    Mirrors (σ := σ) inv noted (fun _ => True) (Action.ofOption cause x)
      (Action.ofOption cause x) := by
  cases x with
  | none => exact mirrors_fail cause
  | some x => exact mirrors_pure trivial

theorem mirrors_asks_of {question : Repository → α} (hvalue : ∀ r, inv r → value (question r)) :
    Mirrors (σ := σ) inv noted value (asks question) (asks question) :=
  fun s hs => ⟨rfl, rfl, hs, fun _ => .inl, fun _ hy => by cases hy; exact hvalue s.repository hs⟩

theorem mirrors_asks (question : Repository → α) :
    Mirrors (σ := σ) inv noted (fun _ => True) (asks question) (asks question) :=
  mirrors_asks_of fun _ _ => trivial

theorem mirrors_take {use : Repository → α} (hdrained : ∀ r, inv r → inv r.drained)
    (hvalue : ∀ r, inv r → value (use r)) :
    Mirrors (σ := σ) inv noted value (take use) (take use) :=
  fun s hs => ⟨rfl, rfl, hdrained s.repository hs, fun _ => .inl,
    fun _ hy => by cases hy; exact hvalue s.repository hs⟩

theorem mirrors_check (data : Record) (mode : Mode) :
    Mirrors (σ := σ) inv noted (fun _ => True) (check data mode) (check data mode) := by
  refine (mirrors_asks _).bind fun (e : Entity) _ => ?_
  cases violation? e data mode with
  | none => exact mirrors_pure trivial
  | some violation => exact mirrors_fail _

/-- An operation that is handed a plan notes this plan alone. -/
theorem mirrors_handing {p : Plan} (hp : noted p) (operation : Action σ α) :
    Mirrors inv noted (fun _ => True) (onStore (Watched.handing p operation))
      (onStore operation) := by
  refine fun s hs => ⟨rfl, rfl, hs, fun q hq => ?_, fun _ _ => trivial⟩
  rcases List.mem_append.mp hq with hq | hq
  · exact .inl hq
  · obtain rfl := List.mem_singleton.mp hq
    exact .inr hp

theorem mirrors_inside (operation : Action σ α) :
    Mirrors inv noted (fun _ => True) (onStore (Watched.inside operation)) (onStore operation) :=
  fun _ hs => ⟨rfl, rfl, hs, fun _ => .inl, fun _ _ => trivial⟩

variable [Storage σ]

/-- The first row of a plan is looked for with one more limit. -/
theorem mirrors_firstOf {p : Plan} (hp : noted (p.add (.take 1))) (columns : List String) :
    Mirrors (σ := σ) inv noted (fun _ => True) (onStore (Storage.first p columns))
      (onStore (Storage.first p columns)) :=
  mirrors_handing hp ((Storage.get (p.add (.take 1)) columns).mapValue List.head?)

end Session

/-! ## The operations -/

section Operations

variable {σ : Type} {m : Model} {e : Entity} {steps : List Step} {t : Terminal}

open Session

/-- A plan for an entity with the filters that an operation may have after a run. -/
abbrev Admissible (e : Entity) (steps : List Step) (t : Terminal) (p : Plan) : Prop :=
  p.Confined e (MayFilter e steps t)

/-- A watched operation next to the same one on the store itself, after a run. -/
abbrev MirrorsAfter (m : Model) (e : Entity) (steps : List Step) (t : Terminal) {α : Type}
    (value : α → Prop) (a : Action (Session (Watched σ)) α) (b : Action (Session σ) α) : Prop :=
  Mirrors (Repository.After m e steps) (Admissible e steps t) value a b

theorem mirrors_takePlan {plan : Repository → Plan}
    (h : ∀ r, Repository.After m e steps r → Admissible e steps t (plan r)) :
    MirrorsAfter (σ := σ) m e steps t (Admissible e steps t) (take plan) (take plan) :=
  mirrors_take (fun _ hr => hr.drained) h

/-- To take an admissible plan and hand it to the store notes nothing else. -/
theorem mirrors_takePlan_handing {α : Type} {plan : Repository → Plan}
    (h : ∀ r, Repository.After m e steps r → Admissible e steps t (plan r))
    (operation : Plan → Action σ α) :
    MirrorsAfter m e steps t (fun _ => True)
      (take plan >>= fun p => onStore (Watched.handing p (operation p)))
      (take plan >>= fun p => onStore (operation p)) :=
  (mirrors_takePlan h).bind fun p hp => mirrors_handing hp (operation p)

theorem mirrors_reset :
    MirrorsAfter (σ := σ) m e steps t (fun _ => True) reset reset :=
  mirrors_take (fun _ hr => hr.drained) fun _ _ => trivial

variable [Storage σ]

theorem mirrors_all (hreads : t.readsRequest) (columns : List String) :
    MirrorsAfter (σ := σ) m e steps t (fun _ => True) (all columns) (all columns) := by
  have hplan : ∀ r, Repository.After m e steps r → Admissible e steps t r.requestPlan :=
    fun r hr => hr.requestPlanOf hreads rfl fun _ hclause => nomatch hclause
  exact mirrors_takePlan_handing hplan fun p => Storage.get p columns

theorem mirrors_get (columns : List String) :
    MirrorsAfter (σ := σ) m e steps t (fun _ => True) (get columns) (get columns) :=
  mirrors_takePlan_handing (fun _ hr => hr.pendingPlan) fun p => Storage.get p columns

theorem mirrors_first (columns : List String) :
    MirrorsAfter (σ := σ) m e steps t (fun _ => True) (first columns) (first columns) := by
  refine (mirrors_takePlan fun _ hr => hr.pendingPlan).bind fun plan hplan => ?_
  refine (mirrors_firstOf (hplan.add_take 1) columns).bind fun row _ => ?_
  exact (mirrors_asks _).bind fun _ _ => mirrors_ofOption _ row

theorem mirrors_find {id : Value} (hown : .compare e.primaryKey .eq id ∈ t.conditions e)
    (columns : List String) :
    MirrorsAfter (σ := σ) m e steps t (fun _ => True) (find id columns) (find id columns) := by
  refine (mirrors_takePlan fun _ hr => hr.keyPlan hown).bind fun plan hplan => ?_
  refine (mirrors_firstOf (hplan.add_take 1) columns).bind fun row _ => ?_
  exact (mirrors_asks _).bind fun _ _ => mirrors_ofOption _ row

theorem mirrors_findBy {column : String} {value : Value}
    (hown : .compare column .eq value ∈ t.conditions e) (columns : List String) :
    MirrorsAfter (σ := σ) m e steps t (fun _ => True) (findBy column value columns)
      (findBy column value columns) := by
  refine (mirrors_takePlan fun _ hr => hr.valuePlan hown).bind fun plan hplan => ?_
  exact mirrors_firstOf (hplan.add_take 1) columns

theorem mirrors_paginate (size : Option Nat) (columns : List String) (pageKey : String)
    (page : Option Nat) :
    MirrorsAfter (σ := σ) m e steps t (fun _ => True) (paginate size columns pageKey page)
      (paginate size columns pageKey page) := by
  refine (mirrors_takePlan fun _ hr => hr.pendingPlan).bind fun plan hplan => ?_
  refine (mirrors_asks _).bind fun perPage _ => ?_
  exact (mirrors_asks _).bind fun number _ => mirrors_handing hplan _

theorem mirrors_search (hreads : t.readsRequest) :
    MirrorsAfter (σ := σ) m e steps t (fun _ => True) search search := by
  have hplan : ∀ r, Repository.After m e steps r → Admissible e steps t r.searchPlan :=
    fun r hr => hr.requestPlanOf hreads rfl fun _ hclause => hclause
  refine (mirrors_takePlan hplan).bind fun plan hplan => ?_
  refine (mirrors_asks _).bind fun perPage _ => ?_
  exact (mirrors_asks _).bind fun number _ => mirrors_handing hplan _

theorem mirrors_count :
    MirrorsAfter (σ := σ) m e steps t (fun _ => True) count count :=
  mirrors_takePlan_handing (fun _ hr => hr.pendingPlan) Storage.count

theorem mirrors_create (data : Record) :
    MirrorsAfter (σ := σ) m e steps t (fun _ => True) (create data) (create data) := by
  refine mirrors_reset.bind fun _ _ => ?_
  refine (mirrors_check data .create).bind fun _ _ => ?_
  exact (mirrors_asks _).bind fun _ _ => mirrors_inside _

theorem mirrors_createMultiple (items : List Record) :
    MirrorsAfter (σ := σ) m e steps t (fun _ => True) (createMultiple items)
      (createMultiple items) := by
  induction items with
  | nil => exact mirrors_pure trivial
  | cons data rest ih =>
      refine (mirrors_create data).bind fun row _ => ?_
      exact ih.bind fun rows _ => mirrors_pure trivial

theorem mirrors_updateById {id : Value} (hown : .compare e.primaryKey .eq id ∈ t.conditions e)
    (data : Record) (touch : Bool) :
    MirrorsAfter (σ := σ) m e steps t (fun _ => True) (updateById id data touch)
      (updateById id data touch) := by
  refine mirrors_reset.bind fun _ _ => ?_
  refine (mirrors_find hown []).bind fun _ _ => ?_
  refine (mirrors_check data .update).bind fun _ _ => ?_
  refine (mirrors_asks _).bind fun _ _ => ?_
  exact (mirrors_inside _).bind fun row _ => mirrors_ofOption _ row

theorem mirrors_deleteById {id : Value} (hown : .compare e.primaryKey .eq id ∈ t.conditions e) :
    MirrorsAfter (σ := σ) m e steps t (fun _ => True) (deleteById id) (deleteById id) := by
  refine mirrors_reset.bind fun _ _ => ?_
  refine (mirrors_find hown []).bind fun _ _ => ?_
  refine (mirrors_takePlan fun _ hr => hr.keyPlan hown).bind fun plan hplan => ?_
  exact (mirrors_handing hplan _).bind fun count _ => mirrors_pure trivial

theorem mirrors_deleteMultipleById {ids : List Value}
    (hown : .oneOf e.primaryKey ids false ∈ t.conditions e) :
    MirrorsAfter (σ := σ) m e steps t (fun _ => True) (deleteMultipleById ids)
      (deleteMultipleById ids) := by
  refine mirrors_reset.bind fun _ _ => ?_
  split
  · exact mirrors_pure trivial
  · refine (mirrors_asks_of fun _ hr => hr.keysPlan hown).bind fun plan hplan => ?_
    exact mirrors_handing hplan _

theorem mirrors_delete :
    MirrorsAfter (σ := σ) m e steps t (fun _ => True) delete delete :=
  mirrors_takePlan_handing (fun _ hr => hr.pendingPlan) Storage.delete

/-- Each operation hands out admissible plans, and does on a watched store what it does on the store
itself. -/
theorem Terminal.run_mirrors (m : Model) (e : Entity) (steps : List Step) (t : Terminal) :
    MirrorsAfter (σ := σ) m e steps t (fun _ => True) t.run t.run := by
  cases t with
  | all columns => exact (mirrors_all rfl columns).mapValue _
  | get columns => exact (mirrors_get columns).mapValue _
  | first columns => exact (mirrors_first columns).mapValue _
  | find id columns => exact (mirrors_find (by simp [conditions]) columns).mapValue _
  | findBy column value columns => exact (mirrors_findBy (by simp [conditions]) columns).mapValue _
  | create data => exact (mirrors_create data).mapValue _
  | createMultiple items => exact (mirrors_createMultiple items).mapValue _
  | updateById id data touch =>
      exact (mirrors_updateById (by simp [conditions]) data touch).mapValue _
  | deleteById id => exact (mirrors_deleteById (by simp [conditions])).mapValue _
  | deleteMultipleById ids =>
      exact (mirrors_deleteMultipleById (by simp [conditions])).mapValue _
  | paginate size columns pageKey page =>
      exact (mirrors_paginate size columns pageKey page).mapValue _
  | search => exact (mirrors_search rfl).mapValue _
  | count => exact mirrors_count.mapValue _
  | delete => exact mirrors_delete.mapValue _

end Operations

/-! ## Runs -/

/-- What is asked of a repository puts nothing but its clause into the pending state. -/
theorem Ask.clauses_apply (a : Ask) (r : Repository) :
    (a.apply r).pending.clauses = r.pending.clauses ++ a.clause?.toList := by
  cases a with
  | filterBy column op value => cases op <;> rfl
  | loadRequested =>
      change r.loadRequested.pending.clauses = r.pending.clauses ++ []
      rw [List.append_nil]
      rcases r.loadRequested_eq_or with h | h <;> rw [h]
      rfl
  | filter column value => rfl
  | filterIn column values negated => rfl
  | filterNull column isNull => rfl
  | _ => exact (List.append_nil _).symm

variable {σ : Type} [Storage σ]

theorem pushedClauses_append (before after : List Step) :
    pushedClauses (before ++ after) = pushedClauses before ++ pushedClauses after :=
  List.filterMap_append

/-- The pending clauses of a repository are among those that have been pushed. -/
theorem clauses_run (steps : List Step) (s : Session σ) :
    ∀ clause ∈ (run steps s).repository.pending.clauses,
      clause ∈ s.repository.pending.clauses ++ pushedClauses steps := by
  induction steps generalizing s with
  | nil =>
      intro clause hclause
      exact List.mem_append_left _ hclause
  | cons step steps ih =>
      intro clause hclause
      rw [show step :: steps = [step] ++ steps from rfl, pushedClauses_append,
        ← List.append_assoc]
      rcases List.mem_append.mp (ih (step.after s) clause hclause) with hstep | hpushed
      · apply List.mem_append_left
        cases step with
        | ask a =>
            have hask : (Step.after s (.ask a)).repository.pending.clauses =
                s.repository.pending.clauses ++ a.clause?.toList :=
              a.clauses_apply s.repository
            rw [hask] at hstep
            have hpushed : pushedClauses [.ask a] = a.clause?.toList := by
              cases h : a.clause? <;> simp [pushedClauses, h]
            rwa [hpushed]
        | terminal t =>
            apply List.mem_append_left
            change clause ∈ (t.run s).2.repository.pending.clauses at hstep
            rcases t.repository_run s with heq | heq
            · rwa [heq] at hstep
            · rw [heq] at hstep
              exact nomatch hstep
      · exact List.mem_append_right _ hpushed

theorem after_run (m : Model) (e : Entity) (store : σ) (steps : List Step) :
    Repository.After m e steps (run steps ⟨Repository.of m e, store⟩).repository where
  toIsOf := run_isOf steps (Repository.isOf_of m e)
  params_eq := params_run steps ⟨Repository.of m e, store⟩
  clauses_mem := clauses_run steps ⟨Repository.of m e, store⟩

/-- The plans that an operation hands to the store of a session. -/
def plansOf (t : Terminal) (s : Session σ) : List Plan := (t.run s.watched).2.store.handed

theorem admissible_of_mem_plansOf {m : Model} {e : Entity} {store : σ} {steps : List Step}
    {t : Terminal} {p : Plan} (hp : p ∈ plansOf t (run steps ⟨Repository.of m e, store⟩)) :
    Admissible e steps t p := by
  have hmirrors := t.run_mirrors m e steps (run steps ⟨Repository.of m e, store⟩).watched
    (after_run m e store steps)
  rcases hmirrors.noted_all p hp with hbefore | hp
  · exact nomatch hbefore
  · exact hp

/-- A request for a list hands out the plans of an operation that reads the request, on a repository
of which nothing else has been asked. -/
theorem exists_mem_plansOf_of_listRows {m : Model} {segment : String} {params : Params} {store : σ}
    {p : Plan} (hp : p ∈ (Http.listRows m segment params (⟨store, []⟩ : Watched σ)).2.handed) :
    ∃ (e : Entity) (t : Terminal), m.entityAt? segment = some e ∧ t.readsRequest ∧
      p ∈ plansOf t (run [.ask (.withParams params)] ⟨Repository.of m e, store⟩) := by
  cases hfound : (Http.entityFor m segment "read" (⟨store, []⟩ : Watched σ)).1 with
  | error cause =>
      rw [Http.listRows, Action.bind_apply_of_error hfound, Http.entityFor_store] at hp
      cases hp
  | ok e =>
      obtain ⟨he, hread⟩ := Http.entityFor_eq_ok_iff.mp hfound
      rw [Http.listRows_apply he hread] at hp
      split at hp
      · exact ⟨e, .search, he, rfl, hp⟩
      · exact ⟨e, .all [], he, rfl, hp⟩

/-- After any run on any store, the plans of an operation are about the entity, in the order of the
composer, with the gate first among the filters, which are those that the run has pushed, that the
operation adds, or that a request may use.  Watching the store changes nothing.  A request for a
list filters by nothing but the gate and columns that a request may filter by. -/
theorem plansOf_confined (m : Model) (e : Entity) (store : σ) (steps : List Step) (t : Terminal) :
    let s := run steps ⟨Repository.of m e, store⟩
    (∀ p ∈ plansOf t s, p.Confined e (MayFilter e steps t) ∧
      ∀ flag, e.activeFlag = some flag →
        p.calls.filters.head? = some (.compare flag.column .eq flag.value)) ∧
    ((t.run s.watched).1 = (t.run s).1 ∧ (t.run s.watched).2.unwatched = (t.run s).2) ∧
    ∀ (segment : String) (params : Params),
      ∀ p ∈ (Http.listRows m segment params (⟨store, []⟩ : Watched σ)).2.handed,
        m.entityAt? segment = some p.entity ∧ ∀ call ∈ p.calls.filters,
          call ∈ p.entity.gateCalls ∨
            ∃ clause, call = .ofClause clause ∧ p.entity.filterable.contains clause.column := by
  intro s
  refine ⟨fun p hp => ⟨admissible_of_mem_plansOf hp, fun flag hflag => ?_⟩, ?_,
    fun segment params p hp => ?_⟩
  · obtain ⟨rest, hfilters, -⟩ := (admissible_of_mem_plansOf hp).filters_eq
    rw [hfilters, Entity.gateCalls, hflag]
    rfl
  · have hmirrors := t.run_mirrors m e steps s.watched (after_run m e store steps)
    exact ⟨hmirrors.result_eq, hmirrors.session_eq⟩
  · -- nothing has been pushed on the repository of a request
    obtain ⟨d, t, hd, hreads, hplan⟩ := exists_mem_plansOf_of_listRows hp
    have hadmissible := admissible_of_mem_plansOf hplan
    obtain rfl := hadmissible.entity_eq
    obtain ⟨rest, hfilters, hrest⟩ := hadmissible.filters_eq
    refine ⟨hd, fun call hcall => ?_⟩
    rw [hfilters] at hcall
    rcases List.mem_append.mp hcall with hgate | hcall
    · exact .inl hgate
    · cases hrest call hcall with
      | pushed hpushed => exact nomatch hpushed
      | own hown =>
          rw [Terminal.conditions_eq_nil hreads] at hown
          exact nomatch hown
      | requested hreads hparam hmem hlisted => exact .inr ⟨_, rfl, hlisted⟩

/-- The books with a title are removed behind the gate. -/
theorem plansOf_confined_books :
    let steps := [Step.ask (.filter "title" (.string "Lathe"))]
    let p : Plan := ⟨Bookshop.books, [.compare "is_active" .eq (.ofInt 1),
      .compare "title" .eq (.string "Lathe")]⟩
    plansOf .delete (run steps ⟨Repository.of Bookshop.model Bookshop.books, Bookshop.store ""⟩) =
        [p] ∧
      p.Confined Bookshop.books (MayFilter Bookshop.books steps .delete) := by
  intro steps p
  have hplans : plansOf .delete (run steps ⟨Repository.of Bookshop.model Bookshop.books,
      Bookshop.store ""⟩) = [p] := rfl
  have h := plansOf_confined Bookshop.model Bookshop.books (Bookshop.store "") steps .delete
  exact ⟨hplans, (h.1 p (by rw [hplans]; exact List.mem_singleton_self p)).1⟩

end EntityService
