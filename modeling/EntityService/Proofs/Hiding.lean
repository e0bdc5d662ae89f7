import EntityService.Proofs.Bookshop
import EntityService.Proofs.Handling
import Mathlib.Data.List.Forall2

/-!
# Hidden columns stay hidden

Two stores that differ in nothing but the values of hidden columns give the same answer to a request
for rows, as long as no hidden column is a key: none that rows are picked, ordered or related by.

## Main definitions

* `Record.SameBut` — two records agree in all but the values under hidden keys
* `Entity.ShowsKeys`, `Model.ShowsKeys` — no key is hidden
* `Memory.SameShown` — two stores agree in all but the values of hidden columns
* `Plan.PicksByShown` — a plan picks and orders rows by columns that are shown

## Main results

* `Record.SameBut.keep_eq` — what is left without the hidden keys is the same
* `SameShown.selected` — a plan selects rows that agree, in the same order
* `SameShown.loaded_eq` — the related rows to add are the same, however deep the paths
* `answer_eq_of_sameShown` — the answers are the same

## Design notes

Rows are related one by one, in order, so that the two stores go through the same selections and
lose nothing on the way.  Related rows are equal as soon as they are loaded, since their hidden
columns are left out there; the rows of the plan itself become equal only when they are shown.
-/

namespace EntityService

open EntityService.Http EntityService.Json EntityService.Model EntityService.Query
open EntityService.Store

/-! ## Records -/

namespace Json.Record

/-- Two records have the same keys, and the same values under the keys that are not hidden. -/
def SameBut (hidden : String → Bool) : Record → Record → Prop :=
  List.Forall₂ fun x y => x.1 = y.1 ∧ (hidden x.1 = false → x.2 = y.2)

namespace SameBut

variable {hidden : String → Bool} {r s : Record}

theorem refl (hidden : String → Bool) (r : Record) : SameBut hidden r r :=
  List.forall₂_same.mpr fun _ _ => ⟨rfl, fun _ => rfl⟩

theorem get?_eq (h : SameBut hidden r s) {key : String} (hkey : hidden key = false) :
    get? r key = get? s key := by
  induction h with
  | nil => rfl
  | @cons x y r s hxy _ ih =>
      obtain ⟨k, v⟩ := x
      obtain ⟨l, w⟩ := y
      obtain ⟨rfl, hvalue⟩ := hxy
      unfold get? at ih ⊢
      rw [List.lookup_cons, List.lookup_cons, ih]
      cases hfound : key == k with
      | false => rfl
      | true =>
          obtain rfl : key = k := by simpa using hfound
          rw [show v = w from hvalue hkey]

theorem cell_eq (h : SameBut hidden r s) {column : String} (hcolumn : hidden column = false) :
    cell r column = cell s column := by
  rw [cell, cell, h.get?_eq hcolumn]

theorem put (h : SameBut hidden r s) (key : String) (value : Value) :
    SameBut hidden (Record.put key value r) (Record.put key value s) := by
  induction h with
  | nil => exact .cons ⟨rfl, fun _ => rfl⟩ .nil
  | @cons x y r s hxy hrest ih =>
      obtain ⟨k, v⟩ := x
      obtain ⟨l, w⟩ := y
      obtain ⟨rfl, hvalue⟩ := hxy
      unfold Record.put
      cases compare key k with
      | lt => exact .cons ⟨rfl, fun _ => rfl⟩ (.cons ⟨rfl, hvalue⟩ hrest)
      | eq => exact .cons ⟨rfl, fun _ => rfl⟩ hrest
      | gt => exact .cons ⟨rfl, hvalue⟩ ih

theorem putAll (h : SameBut hidden r s) (members : Record) :
    SameBut hidden (Record.putAll r members) (Record.putAll s members) := by
  induction members generalizing r s with
  | nil => exact h
  | cons member members ih => exact ih (h.put member.1 member.2)

/-- What is left without the hidden keys is the same. -/
theorem keep_eq (h : SameBut hidden r s) :
    keep r (fun key => !hidden key) = keep s (fun key => !hidden key) := by
  induction h with
  | nil => rfl
  | @cons x y r s hxy _ ih =>
      obtain ⟨k, v⟩ := x
      obtain ⟨l, w⟩ := y
      obtain ⟨rfl, hvalue⟩ := hxy
      unfold keep at ih ⊢
      cases hk : hidden k with
      | true => simpa [List.filter_cons, hk] using ih
      | false =>
          obtain rfl : v = w := hvalue hk
          simpa [List.filter_cons, hk] using ih

end SameBut

end Json.Record

/-! ## Rows in an order -/

section Rows

variable {R : Record → Record → Prop} {as bs : List Record}

/-- Rows that are alike in what they are picked by are picked alike. -/
theorem forall₂_filter {test : Record → Bool} (h : List.Forall₂ R as bs)
    (htest : ∀ a b, R a b → test a = test b) :
    List.Forall₂ R (as.filter test) (bs.filter test) :=
  List.rel_filter (fun _ _ hab => Bool.eq_iff_iff.mp (htest _ _ hab)) h

/-- Rows that are alike in what they are ordered by are put in order alike. -/
theorem forall₂_sortRows {orders : List (String × Bool)} (h : List.Forall₂ R as bs)
    (horder : ∀ a b c d, R a b → R c d → rowOrder orders a c = rowOrder orders b d) :
    List.Forall₂ R (sortRows orders as) (sortRows orders bs) := by
  -- the pairs of related rows can be put in order by either side, which is the same order
  obtain ⟨pairs, rfl, rfl, hpairs⟩ :
      ∃ pairs : List (Record × Record), pairs.map Prod.fst = as ∧ pairs.map Prod.snd = bs ∧
        ∀ x ∈ pairs, R x.1 x.2 :=
    ⟨as.zip bs, List.map_fst_zip (Nat.le_of_eq h.length_eq),
      List.map_snd_zip (Nat.le_of_eq h.length_eq.symm),
      fun x hx => List.forall₂_zip h hx⟩
  have hright : ∀ x ∈ pairs, ∀ y ∈ pairs,
      (rowOrder orders x.1 y.1 != .gt) = (rowOrder orders x.2 y.2 != .gt) :=
    fun x hx y hy => by rw [horder _ _ _ _ (hpairs x hx) (hpairs y hy)]
  rw [sortRows, sortRows,
    ← List.map_mergeSort (r := fun x y => rowOrder orders x.1 y.1 != .gt) fun _ _ _ _ => rfl,
    ← List.map_mergeSort hright, List.forall₂_map_left_iff, List.forall₂_map_right_iff,
    List.forall₂_same]
  exact fun x hx => hpairs x (List.mem_mergeSort.mp hx)

theorem forall₂_limited (limit : Option Nat) (h : List.Forall₂ R as bs) :
    List.Forall₂ R (limited limit as) (limited limit bs) := by
  cases limit with
  | none => exact h
  | some n => exact List.forall₂_take n h

/-- Lists are equal when their rows are, each after a change. -/
theorem map_eq_of_forall₂ {β : Type} {f g : Record → β} (h : List.Forall₂ R as bs)
    (heq : ∀ a b, R a b → f a = g b) : as.map f = bs.map g := by
  rw [← List.forall₂_eq_eq_eq, List.forall₂_map_left_iff, List.forall₂_map_right_iff]
  exact h.imp heq

end Rows

/-! ## Keys -/

/-- No column by which the rows of an entity are found, picked or ordered is hidden. -/
structure Model.Entity.ShowsKeys (e : Entity) : Prop where
  primaryKey : e.hides e.primaryKey = false
  activeFlag : ∀ flag, e.activeFlag = some flag → e.hides flag.column = false
  defaultSort : e.hides e.defaultSort.column = false
  filterable : ∀ column, e.filterable.contains column → e.hides column = false

/-- No key of an entity is hidden, and neither is a column by which rows are related: the local key
by the entity, the foreign key by the target. -/
structure Model.ShowsKeys (m : Model) : Prop where
  entity : ∀ e ∈ m.entities, e.ShowsKeys
  localKey : ∀ e ∈ m.entities, ∀ r ∈ e.relations, e.hides r.localKey = false
  foreignKey : ∀ e ∈ m.entities, ∀ r ∈ e.relations, ∀ target, m.entity? r.target = some target →
    target.hides r.foreignKey = false

/-- A plan picks and orders rows by columns that are shown. -/
structure Model.Plan.PicksByShown (p : Plan) : Prop where
  filters : ∀ call ∈ p.calls.filters, ∃ clause, call = .ofClause clause ∧
    p.entity.hides clause.column = false
  orders : ∀ order ∈ p.orders, p.entity.hides order.1 = false

section Congruence

variable {hidden : String → Bool} {r s t u : Record}

/-- A row passes a condition on a column by what it has there. -/
theorem passes_ofClause_congr (h : r.SameBut hidden s) {clause : Clause}
    (hcolumn : hidden clause.column = false) :
    passes r (.ofClause clause) = passes s (.ofClause clause) := by
  have hcell : Record.cell r clause.column = Record.cell s clause.column := h.cell_eq hcolumn
  cases clause with
  | equality column value => exact congrArg (compares · .eq value) hcell
  | comparison column op value => exact congrArg (compares · op value) hcell
  | membership column values negated => exact congrArg (isOneOf · values negated) hcell
  | nullness column isNull => exact congrArg (fun cell => cell.isNull == isNull) hcell

theorem passesAll_congr {p : Plan} (hp : p.PicksByShown) (h : r.SameBut p.entity.hides s) :
    passesAll p r = passesAll p s := by
  rw [passesAll, passesAll, Bool.eq_iff_iff, List.all_eq_true, List.all_eq_true]
  refine forall₂_congr fun call hcall => ?_
  obtain ⟨clause, rfl, hcolumn⟩ := hp.filters call hcall
  rw [passes_ofClause_congr h hcolumn]

/-- Rows are ordered by what they have in the columns of the order. -/
theorem rowOrder_congr {orders : List (String × Bool)}
    (horders : ∀ order ∈ orders, hidden order.1 = false) (hrs : r.SameBut hidden s)
    (htu : t.SameBut hidden u) : rowOrder orders r t = rowOrder orders s u := by
  induction orders with
  | nil => rfl
  | cons order orders ih =>
      obtain ⟨column, descending⟩ := order
      have hcolumn : hidden column = false := horders _ List.mem_cons_self
      rw [rowOrder, rowOrder, hrs.cell_eq hcolumn, htu.cell_eq hcolumn,
        ih fun order horder => horders order (List.mem_cons_of_mem _ horder)]

end Congruence

/-! ## Stores -/

namespace Store.Memory

/-- Two stores of a model hold the same rows in the same order, but for the values of hidden
columns. -/
structure SameShown (a b : Memory) : Prop where
  model_eq : a.model = b.model
  rows : ∀ e ∈ a.model.entities, List.Forall₂ (Record.SameBut e.hides) (a.rows e.id) (b.rows e.id)

namespace SameShown

variable {a b : Memory} {p : Plan}

/-- A plan selects rows that agree, in the same order. -/
theorem selected (h : a.SameShown b) (hmem : p.entity ∈ a.model.entities) (hp : p.PicksByShown) :
    List.Forall₂ (Record.SameBut p.entity.hides) (a.selected p) (b.selected p) := by
  refine forall₂_sortRows ?_ fun _ _ _ _ => rowOrder_congr hp.orders
  exact forall₂_filter (h.rows p.entity hmem) fun _ _ => passesAll_congr hp

/-! ### Related rows -/

variable {e : Entity} {r s : Record}

/-- Rows that agree are related to rows that agree. -/
theorem relatedRows (h : a.SameShown b) {relation : Relation} {target : Entity}
    (htarget : target ∈ a.model.entities) (hprimary : target.hides target.primaryKey = false)
    (hforeign : target.hides relation.foreignKey = false)
    (hlocal : Record.cell r relation.localKey = Record.cell s relation.localKey) :
    List.Forall₂ (Record.SameBut target.hides) (a.relatedRows relation target r)
      (b.relatedRows relation target s) := by
  unfold Memory.relatedRows
  rw [hlocal]
  refine forall₂_sortRows ?_ fun _ _ _ _ => rowOrder_congr ?_
  · refine forall₂_filter (h.rows target htarget) fun other other' hother => ?_
    rw [hother.cell_eq hforeign]
  · intro order horder
    obtain rfl := List.mem_singleton.mp horder
    exact hprimary

/-- The same relations are known from rows that agree, and lead to rows that agree. -/
theorem related? (h : a.SameShown b) (hm : a.model.ShowsKeys) (he : e ∈ a.model.entities)
    (hrow : r.SameBut e.hides s) (name : String) :
    (a.related? e r name = none ∧ b.related? e s name = none) ∨
      ∃ relation target as bs, target ∈ a.model.entities ∧
        a.related? e r name = some (relation, target, as) ∧
        b.related? e s name = some (relation, target, bs) ∧
        List.Forall₂ (Record.SameBut target.hides) as bs := by
  unfold Memory.related?
  rw [← h.model_eq]
  cases hrelation : e.relation? name with
  | none => exact .inl ⟨rfl, rfl⟩
  | some relation =>
      have hmem : relation ∈ e.relations := List.mem_of_find?_eq_some hrelation
      cases htarget : a.model.entity? relation.target with
      | none => exact .inl ⟨by simp [htarget], by simp [htarget]⟩
      | some target =>
          have htargetMem : target ∈ a.model.entities := List.mem_of_find?_eq_some htarget
          refine .inr ⟨relation, target, a.relatedRows relation target r,
            b.relatedRows relation target s, htargetMem, by simp [htarget], by simp [htarget], ?_⟩
          exact h.relatedRows htargetMem (hm.entity target htargetMem).primaryKey
            (hm.foreignKey e he relation hmem target htarget)
            (hrow.cell_eq (hm.localKey e he relation hmem))

/-- The related rows to add are the same, however deep the paths: at each level the rows are
stripped of their hidden columns before their own related rows are added. -/
theorem loaded_eq (h : a.SameShown b) (hm : a.model.ShowsKeys) (depth : Nat)
    (he : e ∈ a.model.entities) (hrow : r.SameBut e.hides s) (paths : List (List String)) :
    a.loaded depth e r paths = b.loaded depth e s paths := by
  induction depth generalizing e r s paths with
  | zero => rfl
  | succ depth ih =>
      unfold loaded
      refine List.filterMap_congr fun x _ => ?_
      obtain ⟨head, nested⟩ := x
      dsimp only
      rcases h.related? hm he hrow head with ⟨hnone, hnone'⟩ | hsome
      · rw [hnone, hnone', Option.map_none, Option.map_none]
      · obtain ⟨relation, target, as, bs, htarget, ha, hb, hrows⟩ := hsome
        rw [ha, hb]
        simp only [Option.map_some]
        -- the two sides are compared row by row, by the hypothesis for the rest of the path
        rw [map_eq_of_forall₂ hrows]
        intro other other' hother
        have hstripped : target.withoutHidden other = target.withoutHidden other' :=
          hother.keep_eq
        rw [hstripped, ih htarget hother nested]

theorem counted_eq (h : a.SameShown b) (hm : a.model.ShowsKeys)
    (hmem : p.entity ∈ a.model.entities) (hrow : r.SameBut p.entity.hides s) :
    a.counted p r = b.counted p s := by
  unfold counted
  refine List.filterMap_congr fun name _ => ?_
  rcases h.related? hm hmem hrow name with ⟨hnone, hnone'⟩ | hsome
  · rw [hnone, hnone']
  · obtain ⟨relation, target, as, bs, -, ha, hb, hrows⟩ := hsome
    rw [ha, hb]
    simp only [Option.map_some, hrows.length_eq]

theorem knownPaths_eq (h : a.SameShown b) (p : Plan) : a.knownPaths p = b.knownPaths p := by
  rw [knownPaths, knownPaths, h.model_eq]

/-- A row of a plan is the same once its hidden columns are left out. -/
theorem shownRow_eq (h : a.SameShown b) (hm : a.model.ShowsKeys)
    (hmem : p.entity ∈ a.model.entities) (hrow : r.SameBut p.entity.hides s) :
    shownRow p.entity (a.shown p [] r) = shownRow p.entity (b.shown p [] s) := by
  have hloaded := h.loaded_eq hm (depth (a.knownPaths p)) hmem hrow (a.knownPaths p)
  have hcounted := h.counted_eq hm hmem hrow
  unfold shown
  dsimp only
  rw [← h.knownPaths_eq p, ← hloaded, ← hcounted]
  exact congrArg Value.object ((hrow.putAll _).putAll _).keep_eq

/-! ### Operations that read -/

theorem get (h : a.SameShown b) (hm : a.model.ShowsKeys) (hmem : p.entity ∈ a.model.entities)
    (hp : p.PicksByShown) :
    ∃ as bs, (Storage.get p [] a).1 = .ok as ∧ (Storage.get p [] b).1 = .ok bs ∧
      as.map (shownRow p.entity) = bs.map (shownRow p.entity) := by
  refine ⟨_, _, get_fst p [] a, get_fst p [] b, ?_⟩
  rw [List.map_map, List.map_map]
  exact map_eq_of_forall₂ (forall₂_limited _ (h.selected hmem hp)) fun _ _ =>
    h.shownRow_eq hm hmem

theorem paginate (h : a.SameShown b) (hm : a.model.ShowsKeys) (hmem : p.entity ∈ a.model.entities)
    (hp : p.PicksByShown) (perPage number : Nat) :
    ∃ as bs, (Storage.paginate p [] perPage number a).1 = .ok as ∧
      (Storage.paginate p [] perPage number b).1 = .ok bs ∧
      as.mapRows (shownRow p.entity) = bs.mapRows (shownRow p.entity) := by
  refine ⟨_, _, paginate_fst p [] perPage number a, paginate_fst p [] perPage number b, ?_⟩
  have hselected := h.selected hmem hp
  have hwindow := List.forall₂_take (max perPage 1)
    (List.forall₂_drop (Page.offset perPage number) hselected)
  have hrows := map_eq_of_forall₂ hwindow fun _ _ => h.shownRow_eq hm hmem
  simp only [Page.mapRows, Page.of, Page.window, List.map_map, Function.comp_def, hrows,
    hselected.length_eq]

theorem first (h : a.SameShown b) (hm : a.model.ShowsKeys) (hmem : p.entity ∈ a.model.entities)
    (hp : p.PicksByShown) :
    ∃ x y, (Storage.first p [] a).1 = .ok x ∧ (Storage.first p [] b).1 = .ok y ∧
      x.map (shownRow p.entity) = y.map (shownRow p.entity) := by
  -- one limit more changes neither the filters nor the orders
  have hlimited : (p.add (.take 1)).PicksByShown :=
    { filters := by simpa only [Plan.add, Calls.filters_append_take] using hp.filters
      orders := by
        simpa only [Plan.orders, Plan.add, Calls.effectiveOrders, Calls.directedOrders,
          Calls.orders_append_take] using hp.orders }
  obtain ⟨as, bs, ha, hb, hrows⟩ := h.get (p := p.add (.take 1)) hm hmem hlimited
  refine ⟨as.head?, bs.head?, ?_, ?_, ?_⟩
  · exact congrArg (Except.map List.head?) ha
  · exact congrArg (Except.map List.head?) hb
  · rw [← List.head?_map, ← List.head?_map]
    exact congrArg List.head? hrows

end SameShown

end Store.Memory

/-! ## Plans of a request -/

section Plans

variable {e : Entity} {m : Model} {params : Params}

/-- The gate of an entity is about a column that is shown. -/
theorem Model.Entity.ShowsKeys.gate (h : e.ShowsKeys) {clause : Clause}
    (hclause : clause ∈ e.activeFlag.map ActiveFlag.gate) : e.hides clause.column = false := by
  obtain ⟨flag, hflag, rfl⟩ := Option.map_eq_some_iff.mp hclause
  exact h.activeFlag flag hflag

/-- A composed plan picks by shown columns when its clauses and sorts are about such columns. -/
theorem picksByShown_compose {state : Pending} {sorts : List SortKey} {clauses : List Clause}
    (inclusion : Inclusion)
    (hclauses : ∀ clause ∈ state.allClauses ++ clauses, e.hides clause.column = false)
    (hsorts : ∀ s ∈ sorts ++ state.sorts, e.hides s.column = false)
    (hprimary : e.hides e.primaryKey = false) :
    Plan.PicksByShown ⟨e, compose state inclusion sorts clauses⟩ where
  filters := by
    intro call hcall
    dsimp only at hcall
    rw [filters_compose] at hcall
    obtain ⟨clause, hclause, rfl⟩ := List.mem_map.mp hcall
    exact ⟨clause, rfl, hclauses clause hclause⟩
  orders := by
    intro order horder
    rcases Calls.mem_effectiveOrders horder with hkey | ⟨direction, hmem⟩
    · rw [hkey]
      exact hprimary
    · dsimp only at hmem
      rw [orders_compose] at hmem
      obtain ⟨s, hs, heq⟩ := List.mem_map.mp hmem
      have hcolumn : s.column = order.1 := congrArg Prod.fst heq
      rw [← hcolumn]
      exact hsorts s hs

/-- The plan of a request for a list picks by shown columns when the request names no hidden column
to sort by. -/
theorem picksByShown_searchPlan (h : e.ShowsKeys)
    (hsort : ∀ s ∈ namedSorts (params.get? "sort"), e.hides s.column = false) :
    ((Repository.of m e).withParams params).searchPlan.PicksByShown := by
  refine picksByShown_compose _ ?_ ?_ h.primaryKey
  · intro clause hclause
    rcases List.mem_append.mp hclause with hstate | hrequest
    · refine h.gate ?_
      simpa [Pending.allClauses, Repository.of, Repository.withParams, Pending.fresh,
        Pending.ofGate] using hstate
    · exact h.filterable _ (contains_of_mem_resolveFilters hrequest)
  · intro s hs
    rcases List.mem_append.mp hs with hrequest | hstate
    · rcases mem_resolveSorts hrequest with rfl | hnamed
      · exact h.defaultSort
      · exact hsort s hnamed
    · exact nomatch hstate

/-- The plan of one row picks by the key, behind the gate. -/
theorem picksByShown_keyPlan {r : Repository} (h : r.entity.ShowsKeys)
    (hgate : r.pending.gate = r.entity.activeFlag.map ActiveFlag.gate) (id : Value) :
    (r.keyPlan id).PicksByShown := by
  refine picksByShown_compose _ ?_ nofun h.primaryKey
  intro clause hclause
  simp only [Pending.allClauses, Pending.addClause, Pending.eagerLoads, Pending.ofGate,
    List.nil_append, List.append_nil, List.mem_append, Option.mem_toList,
    List.mem_singleton] at hclause
  rcases hclause with hflag | rfl
  · rw [hgate] at hflag
    exact h.gate hflag
  · exact h.primaryKey

end Plans

/-! ## Answers -/

section Answers

variable {m : Model} {a b : Memory} {segment key : String} {params : Params}

theorem listRows_eq_of_sameShown (hm : m.ShowsKeys) (ha : a.model = m) (h : a.SameShown b)
    (hsort : ∀ e, m.entityAt? segment = some e →
      ∀ s ∈ namedSorts (params.get? "sort"), e.hides s.column = false) :
    (listRows m segment params a).1 = (listRows m segment params b).1 := by
  refine Action.bind_fst_congr (entityFor_fst m segment "read" a b) fun e hfound => ?_
  rw [entityFor_store, entityFor_store]
  obtain ⟨he, -⟩ := entityFor_eq_ok_iff.mp hfound
  have hmem : e ∈ m.entities := List.mem_of_find?_eq_some he
  have hplan : ((Repository.of m e).withParams params).searchPlan.PicksByShown :=
    picksByShown_searchPlan (hm.entity e hmem) (hsort e he)
  rw [← ha] at hm hmem
  split
  · obtain ⟨as, bs, has, hbs, hrows⟩ := h.paginate hm hmem hplan _ _
    rw [Action.bind_pure_apply, Action.bind_pure_apply, inSession_search, Action.mapValue_fst,
      Action.mapValue_fst, has, hbs]
    exact congrArg (fun page => Except.ok (Response.page page)) hrows
  · obtain ⟨as, bs, has, hbs, hrows⟩ := h.get hm hmem hplan
    rw [Action.bind_pure_apply, Action.bind_pure_apply, inSession_all, requestPlan_withParams,
      Action.mapValue_fst, Action.mapValue_fst, has, hbs]
    exact congrArg (fun rows => Except.ok (Response.many 200 rows)) hrows

/-- Whatever is made of the row with a key once its hidden columns are left out is the same. -/
theorem find_eq_of_sameShown {α : Type} {r : Repository} (hm : a.model.ShowsKeys)
    (h : a.SameShown b) (hmem : r.entity ∈ a.model.entities)
    (hgate : r.pending.gate = r.entity.activeFlag.map ActiveFlag.gate) (id : Value)
    (use : Value → α) :
    ((inSession r (Session.find id [])).mapValue (fun row => use (shownRow r.entity row)) a).1 =
      ((inSession r (Session.find id [])).mapValue
        (fun row => use (shownRow r.entity row)) b).1 := by
  have hplan : (r.keyPlan id).PicksByShown :=
    picksByShown_keyPlan (hm.entity r.entity hmem) hgate id
  obtain ⟨x, y, hx, hy, hrow⟩ := h.first hm hmem hplan
  rw [inSession_find, Action.mapValue_fst, Action.mapValue_fst, Action.bind_apply_of_ok hx,
    Action.bind_apply_of_ok hy]
  -- a row is found by both or by neither
  cases x with
  | none =>
      cases y with
      | none => rfl
      | some y => exact nomatch hrow
  | some x =>
      cases y with
      | none => exact nomatch hrow
      | some y => exact congrArg (fun row => Except.ok (use row)) (Option.some.inj hrow)

theorem readRow_eq_of_sameShown (hm : m.ShowsKeys) (ha : a.model = m) (h : a.SameShown b) :
    (readRow m segment key params a).1 = (readRow m segment key params b).1 := by
  refine Action.bind_fst_congr (entityFor_fst m segment "read" a b) fun e hfound => ?_
  rw [entityFor_store, entityFor_store]
  obtain ⟨he, -⟩ := entityFor_eq_ok_iff.mp hfound
  have hmem : e ∈ m.entities := List.mem_of_find?_eq_some he
  cases readKey e.keyType key with
  | error fault => rfl
  | ok id =>
      -- the key is read from the path alone
      refine Action.bind_fst_congr rfl fun _ hid => ?_
      cases hid
      change ((inSession _ _ >>= fun row => pure (Response.one 200 (shownRow e row))) a).1 =
        ((inSession _ _ >>= fun row => pure (Response.one 200 (shownRow e row))) b).1
      rw [Action.bind_pure_apply, Action.bind_pure_apply]
      let r := ((Repository.of m e).withParams params).loadRequested
      have hentity : r.entity = e := Repository.loadRequested_entity _
      have hgate : r.pending.gate = r.entity.activeFlag.map ActiveFlag.gate := by
        rw [hentity]
        exact Repository.loadRequested_gate _
      rw [← ha] at hm hmem
      have hrow := find_eq_of_sameShown hm h (hentity ▸ hmem) hgate id (Response.one 200)
      rwa [hentity] at hrow

end Answers

/-- A request by the method `GET` that names no hidden column of its entity to sort by is answered
alike by two stores that differ in nothing but the values of hidden columns, whatever relations it
asks to load, to whatever depth, and whatever it asks to count or filters by. -/
theorem answer_eq_of_sameShown {service : Service} {a b : Memory} {r : Request}
    (hkeys : service.model.ShowsKeys) (hmodel : a.model = service.model) (hsame : a.SameShown b)
    (hget : r.method = "GET")
    (hsort : ∀ e, r.entity? service.model = some e →
      ∀ s ∈ namedSorts (r.params.get? "sort"), e.hides s.column = false) :
    (service.answer r a).1 = (service.answer r b).1 := by
  rw [answer_of_get hget, answer_of_get hget]
  unfold Service.orderOf
  split
  · rfl
  rcases ofRequest_get hget with ⟨segment, hsegment, horder⟩ | ⟨segment, key, -, horder⟩ | hnone
  · have hrows : (listRows service.model segment r.params a).1 =
        (listRows service.model segment r.params b).1 :=
      listRows_eq_of_sameShown hkeys hmodel hsame fun e he =>
        hsort e (by rw [Request.entity?, hsegment]; exact he)
    rw [horder, carryOut_entity_fst, carryOut_entity_fst, Command.run, hrows]
  · have hrow : (readRow service.model segment key r.params a).1 =
        (readRow service.model segment key r.params b).1 :=
      readRow_eq_of_sameShown hkeys hmodel hsame
    rw [horder, carryOut_entity_fst, carryOut_entity_fst, Command.run, hrow]
  · cases horder : Order.ofRequest r with
    | entity command => exact absurd horder (hnone command)
    | _ => rfl

/-- No key of the bookshop is hidden. -/
theorem Bookshop.showsKeys : Bookshop.model.ShowsKeys where
  entity := by
    simp only [Bookshop.model, List.forall_mem_cons]
    refine ⟨⟨rfl, nofun, rfl, fun column hcolumn => ?_⟩,
      ⟨rfl, fun _ _ => rfl, rfl, fun _ _ => rfl⟩, nofun⟩
    have hfields : Bookshop.authors.filterable.fields =
        ["name", "id", "created_at", "updated_at"] := by decide
    simp only [FieldSet.contains, hfields, List.contains_eq_mem, decide_eq_true_eq,
      List.mem_cons, List.not_mem_nil, or_false] at hcolumn
    rcases hcolumn with rfl | rfl | rfl | rfl <;> rfl
  localKey := by
    simp only [Bookshop.model, List.forall_mem_cons]
    exact ⟨by decide, by decide, nofun⟩
  foreignKey := by
    simp only [Bookshop.model, Bookshop.authors, Bookshop.books, List.forall_mem_cons]
    refine ⟨⟨fun target htarget => ?_, nofun⟩, ⟨fun target htarget => ?_, nofun⟩, nofun⟩
    · obtain rfl : Bookshop.books = target := Option.some.inj htarget
      rfl
    · obtain rfl : Bookshop.authors = target := Option.some.inj htarget
      rfl

/-- Bookshops that differ in nothing but the secrets of their authors. -/
theorem Bookshop.store_sameShown (secret other : String) :
    (Bookshop.store secret).SameShown (Bookshop.store other) where
  model_eq := rfl
  rows := by
    have hsecret : ¬authors.hides "secret" = false := by decide
    have hauthor : ∀ id name,
        (author id name secret).SameBut authors.hides (author id name other) :=
      fun _ _ => .cons ⟨rfl, fun _ => rfl⟩ (.cons ⟨rfl, fun _ => rfl⟩
        (.cons ⟨rfl, fun hshown => absurd hshown hsecret⟩ .nil))
    change ∀ e ∈ [authors, books], _
    simp only [List.forall_mem_cons]
    refine ⟨.cons (hauthor 1 "North") (.cons (hauthor 2 "East") .nil),
      List.forall₂_same.mpr fun row _ => .refl books.hides row, nofun⟩

/-- Nobody learns an author's secret from a page of authors with their books and the authors of
these. -/
theorem answer_eq_of_sameShown_bookshop :
    let r : Request :=
      ⟨"GET", .read "/api/v1/authors?include=books.author&sort=name:asc", none, ""⟩
    (Bookshop.store "hush").SameShown (Bookshop.store "quiet") ∧
      (Service.answer ⟨Bookshop.model, true⟩ r (Bookshop.store "hush")).1 =
        (Service.answer ⟨Bookshop.model, true⟩ r (Bookshop.store "quiet")).1 := by
  intro r
  have hsame := Bookshop.store_sameShown "hush" "quiet"
  refine ⟨hsame, answer_eq_of_sameShown Bookshop.showsKeys rfl hsame rfl fun e he s hs => ?_⟩
  obtain rfl : Bookshop.authors = e := Option.some.inj he
  have hsorts : namedSorts (r.params.get? "sort") = [⟨"name", "asc"⟩] := by decide
  rw [hsorts] at hs
  obtain rfl := List.mem_singleton.mp hs
  rfl

end EntityService
