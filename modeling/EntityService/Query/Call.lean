import EntityService.Query.Inclusion
import EntityService.Query.Pending

/-!
# Query calls

A query as the list of the calls that built it.

## Main definitions

* `Call` — a filter, an order, a relation to load or count, or a limit
* `Calls.filters`, `Calls.orders`, `Calls.relations`, `Calls.counts`, `Calls.limit?` — the views of
  a list of calls that a store reads
* `compose` — the calls of a pending state and the parts of a request

## Design notes

A store sees a query only through the views.  Filters and orders keep their order, relations and
counts lose their repetitions, and of several limits the last one holds.
-/

namespace EntityService.Query

open EntityService.Json

/-- A call that builds a query. -/
inductive Call where
  | compare (column : String) (op : Comparison) (value : Value)
  | oneOf (column : String) (values : List Value) (negated : Bool)
  | nullness (column : String) (isNull : Bool)
  | orderBy (column direction : String)
  | load (relation : String)
  | count (relation : String)
  | take (limit : Nat)
  deriving Repr

namespace Call

/-- The call that applies a clause. -/
def ofClause : Clause → Call
  | .equality column value => compare column .eq value
  | .comparison column op value => compare column op value
  | .membership column values negated => oneOf column values negated
  | .nullness column isNull => nullness column isNull

/-- The call that applies a sort. -/
def ofSort (s : SortKey) : Call := orderBy s.column s.direction

/-- A call that restricts the rows by their values. -/
def isFilter : Call → Bool
  | compare .. => true
  | oneOf .. => true
  | nullness .. => true
  | _ => false

/-- The column and direction of a call that orders. -/
def order? : Call → Option (String × String)
  | orderBy column direction => some (column, direction)
  | _ => none

/-- The relation of a call that loads. -/
def load? : Call → Option String
  | load relation => some relation
  | _ => none

/-- The relation of a call that counts. -/
def count? : Call → Option String
  | count relation => some relation
  | _ => none

/-- The limit of a call that limits. -/
def take? : Call → Option Nat
  | take limit => some limit
  | _ => none

end Call

/-- The calls that built a query, in the order in which they were made. -/
abbrev Calls := List Call

namespace Calls

/-- The calls that restrict the rows by their values. -/
def filters (calls : Calls) : List Call := calls.filter (·.isFilter)

/-- The columns to order by, with their directions. -/
def orders (calls : Calls) : List (String × String) := calls.filterMap Call.order?

/-- The paths of the relations to load, each once. -/
def relations (calls : Calls) : List String := (calls.filterMap Call.load?).eraseDups

/-- The relations to count, each once. -/
def counts (calls : Calls) : List String := (calls.filterMap Call.count?).eraseDups

/-- The limit, the last one of several. -/
def limit? (calls : Calls) : Option Nat := (calls.filterMap Call.take?).getLast?

/-- The columns to order by, `true` for descending ones, without those whose direction is
unknown. -/
def directedOrders (calls : Calls) : List (String × Bool) :=
  calls.orders.filterMap fun (column, direction) =>
    (SortKey.readDirection? direction).map fun descending => (column, descending)

/-- The columns that the rows are put in order by: the known orders, or the primary key ascending
when there is none. -/
def effectiveOrders (calls : Calls) (primaryKey : String) : List (String × Bool) :=
  match calls.directedOrders with
  | [] => [(primaryKey, false)]
  | orders => orders

end Calls

/-- The calls of a pending state and the parts of a request: sorts, relations, counts, filters and
limit, in this order.  The sorts and counts of the request come before those of the state, its
relations and filters after them. -/
def compose (state : Pending) (inclusion : Inclusion) (sorts : List SortKey)
    (clauses : List Clause) : Calls :=
  (sorts ++ state.sorts).map Call.ofSort ++
  (state.relations ++ inclusion.relations).map Call.load ++
  inclusion.counts.map Call.count ++
  (state.allClauses ++ clauses).map Call.ofClause ++
  state.limit.toList.map Call.take

/-! ### Names without repetitions -/

/-- It does not matter whether repetitions are left out before or after other names. -/
theorem filter_eraseDups (keep : String → Bool) (names : List String) :
    names.eraseDups.filter keep = (names.filter keep).eraseDups := by
  induction h : names.length using Nat.strongRecOn generalizing names with
  | ind n ih =>
      cases names with
      | nil => rfl
      | cons name rest =>
          have hlength : (rest.filter fun other => !other == name).length < n :=
            h ▸ Nat.lt_succ_of_le (List.length_filter_le _ _)
          rw [List.eraseDups_cons, List.filter_cons, List.filter_cons, ih _ hlength _ rfl]
          split
          · rw [List.eraseDups_cons, List.filter_filter, List.filter_filter]
            simp only [Bool.and_comm]
          · next hkeep =>
              -- a name that is not kept is not among the kept ones
              rw [List.filter_filter]
              refine congrArg List.eraseDups (List.filter_congr fun other _ => ?_)
              by_cases hother : other = name
              · subst hother
                simp [hkeep]
              · simp [hother]

theorem eraseDups_eraseDups (names : List String) :
    names.eraseDups.eraseDups = names.eraseDups := by
  induction h : names.length using Nat.strongRecOn generalizing names with
  | ind n ih =>
      cases names with
      | nil => rfl
      | cons name rest =>
          have hlength : (rest.filter fun other => !other == name).length < n :=
            h ▸ Nat.lt_succ_of_le (List.length_filter_le _ _)
          have hfilter : (rest.filter fun other => !other == name).eraseDups.filter
                (fun other => !other == name) =
              (rest.filter fun other => !other == name).eraseDups := by
            rw [filter_eraseDups, List.filter_filter]
            simp only [Bool.and_self]
          rw [List.eraseDups_cons, List.eraseDups_cons, hfilter, ih _ hlength _ rfl]

/-! ### What a store sees of a composed query -/

namespace Call

variable (clause : Clause) (sort : SortKey) (name : String) (n : Nat)

@[simp] theorem isFilter_ofClause : (ofClause clause).isFilter = true := by
  cases clause <;> rfl

@[simp] theorem isFilter_ofSort : (ofSort sort).isFilter = false := rfl

@[simp] theorem isFilter_load : (load name).isFilter = false := rfl

@[simp] theorem isFilter_count : (count name).isFilter = false := rfl

@[simp] theorem isFilter_take : (take n).isFilter = false := rfl

@[simp] theorem order?_ofClause : (ofClause clause).order? = none := by
  cases clause <;> rfl

@[simp] theorem order?_ofSort : (ofSort sort).order? = some (sort.column, sort.direction) := rfl

@[simp] theorem order?_load : (load name).order? = none := rfl

@[simp] theorem order?_count : (count name).order? = none := rfl

@[simp] theorem order?_take : (take n).order? = none := rfl

@[simp] theorem load?_ofClause : (ofClause clause).load? = none := by
  cases clause <;> rfl

@[simp] theorem load?_ofSort : (ofSort sort).load? = none := rfl

@[simp] theorem load?_load : (load name).load? = some name := rfl

@[simp] theorem load?_count : (count name).load? = none := rfl

@[simp] theorem load?_take : (take n).load? = none := rfl

@[simp] theorem count?_ofClause : (ofClause clause).count? = none := by
  cases clause <;> rfl

@[simp] theorem count?_ofSort : (ofSort sort).count? = none := rfl

@[simp] theorem count?_load : (load name).count? = none := rfl

@[simp] theorem count?_count : (count name).count? = some name := rfl

@[simp] theorem count?_take : (take n).count? = none := rfl

@[simp] theorem take?_ofClause : (ofClause clause).take? = none := by
  cases clause <;> rfl

@[simp] theorem take?_ofSort : (ofSort sort).take? = none := rfl

@[simp] theorem take?_load : (load name).take? = none := rfl

@[simp] theorem take?_count : (count name).take? = none := rfl

@[simp] theorem take?_take : (take n).take? = some n := rfl

/-- Calls that are built by something other than a filter leave no filter. -/
theorem filter_isFilter_eq_nil {α : Type} {build : α → Call}
    (h : ∀ x, (build x).isFilter = false) (xs : List α) :
    (xs.map build).filter (·.isFilter) = [] := by
  rw [List.filter_eq_nil_iff]
  intro call hcall
  obtain ⟨x, -, rfl⟩ := List.mem_map.mp hcall
  simp [h x]

/-- Calls of which a view sees nothing. -/
theorem filterMap_eq_nil {α β : Type} {build : α → Call} {view : Call → Option β}
    (h : ∀ x, view (build x) = none) (xs : List α) : (xs.map build).filterMap view = [] := by
  rw [List.filterMap_eq_nil_iff]
  intro call hcall
  obtain ⟨x, -, rfl⟩ := List.mem_map.mp hcall
  exact h x

/-- Calls of which a view sees what they are built from. -/
theorem filterMap_eq_self {α : Type} {build : α → Call} {view : Call → Option α}
    (h : ∀ x, view (build x) = some x) (xs : List α) : (xs.map build).filterMap view = xs := by
  have hview : view ∘ build = some := funext h
  rw [List.filterMap_map, hview, List.filterMap_some]

/-- Calls that are built from clauses are filters. -/
theorem filter_isFilter_map_ofClause (clauses : List Clause) :
    (clauses.map ofClause).filter (·.isFilter) = clauses.map ofClause := by
  rw [List.filter_eq_self]
  intro call hcall
  obtain ⟨clause, -, rfl⟩ := List.mem_map.mp hcall
  exact isFilter_ofClause clause

end Call

section Compose

variable (state : Pending) (inclusion : Inclusion) (sorts : List SortKey) (clauses : List Clause)

/-- The filters are the clauses, those of the state with its gate first. -/
theorem filters_compose :
    (compose state inclusion sorts clauses).filters =
      (state.allClauses ++ clauses).map Call.ofClause := by
  simp only [compose, Calls.filters, List.filter_append, Call.filter_isFilter_map_ofClause,
    Call.filter_isFilter_eq_nil Call.isFilter_ofSort,
    Call.filter_isFilter_eq_nil Call.isFilter_load,
    Call.filter_isFilter_eq_nil Call.isFilter_count,
    Call.filter_isFilter_eq_nil Call.isFilter_take, List.nil_append, List.append_nil]

/-- The orders are the sorts, those of the request first. -/
theorem orders_compose :
    (compose state inclusion sorts clauses).orders =
      (sorts ++ state.sorts).map fun s => (s.column, s.direction) := by
  simp [compose, Calls.orders, List.filterMap_map, Function.comp_def]

/-- The relations are those of the state and of the request. -/
theorem relations_compose :
    (compose state inclusion sorts clauses).relations =
      (state.relations ++ inclusion.relations).eraseDups := by
  have hloads : (compose state inclusion sorts clauses).filterMap Call.load? =
      state.relations ++ inclusion.relations := by
    simp only [compose, List.filterMap_append, Call.filterMap_eq_self Call.load?_load,
      Call.filterMap_eq_nil Call.load?_ofSort, Call.filterMap_eq_nil Call.load?_count,
      Call.filterMap_eq_nil Call.load?_ofClause, Call.filterMap_eq_nil Call.load?_take,
      List.nil_append, List.append_nil]
  rw [Calls.relations, hloads]

/-- The counts are those of the request. -/
theorem counts_compose :
    (compose state inclusion sorts clauses).counts = inclusion.counts.eraseDups := by
  have hcounts : (compose state inclusion sorts clauses).filterMap Call.count? =
      inclusion.counts := by
    simp only [compose, List.filterMap_append, Call.filterMap_eq_self Call.count?_count,
      Call.filterMap_eq_nil Call.count?_ofSort, Call.filterMap_eq_nil Call.count?_load,
      Call.filterMap_eq_nil Call.count?_ofClause, Call.filterMap_eq_nil Call.count?_take,
      List.nil_append, List.append_nil]
  rw [Calls.counts, hcounts]

/-- The limit is the one of the state. -/
theorem limit?_compose : (compose state inclusion sorts clauses).limit? = state.limit := by
  cases h : state.limit <;>
    simp [compose, Calls.limit?, List.filterMap_map, Function.comp_def, h]

end Compose

/-- Rows are put in order by the columns of the orders, or by the primary key. -/
theorem Calls.mem_effectiveOrders {calls : Calls} {primaryKey : String} {order : String × Bool}
    (h : order ∈ calls.effectiveOrders primaryKey) :
    order.1 = primaryKey ∨ ∃ direction, (order.1, direction) ∈ calls.orders := by
  unfold effectiveOrders at h
  split at h
  · exact .inl (congrArg Prod.fst (List.mem_singleton.mp h))
  · obtain ⟨⟨column, direction⟩, hmem, hread⟩ := List.mem_filterMap.mp h
    obtain ⟨descending, -, rfl⟩ := Option.map_eq_some_iff.mp hread
    exact .inr ⟨direction, hmem⟩

/-- A limit is neither a filter nor an order. -/
theorem Calls.filters_append_take (calls : Calls) (n : Nat) :
    Calls.filters (calls ++ [.take n]) = calls.filters := by
  simp [Calls.filters]

theorem Calls.orders_append_take (calls : Calls) (n : Nat) :
    Calls.orders (calls ++ [.take n]) = calls.orders := by
  simp [Calls.orders]

theorem Calls.relations_append_take (calls : Calls) (n : Nat) :
    Calls.relations (calls ++ [.take n]) = calls.relations := by
  rw [relations, List.filterMap_append, relations]
  exact congrArg List.eraseDups (List.append_nil _)

theorem Calls.counts_append_take (calls : Calls) (n : Nat) :
    Calls.counts (calls ++ [.take n]) = calls.counts := by
  rw [counts, List.filterMap_append, counts]
  exact congrArg List.eraseDups (List.append_nil _)

theorem Calls.limit?_append_take (calls : Calls) (n : Nat) :
    Calls.limit? (calls ++ [.take n]) = some n := by
  simp [Calls.limit?]

end EntityService.Query
