import EntityService.Proofs.Sorting

/-!
# Filters narrow

What the filters of a plan do to its rows, wherever they stand among its calls.

## Main definitions

* `Calls.rest` — the calls that are not filters
* `Calls.FilterAlike` — calls with the same filters, wherever and how often they are made

## Main results

* `Calls.FilterAlike.move`, `Calls.FilterAlike.repeated` — a filter may be made later, or twice
* `selected_filterAlike`, `shown_eq_of_rest` — it does not matter where filters stand
* `selected_add` — one filter more takes rows out and leaves the others in their order
* `filters_narrow` — what is read by a plan

## Design notes

Rows are filtered before they are sorted.  That a filter may as well be applied to the sorted rows
is due to the sort being stable on an order: what is left of the sorted rows is in order, with ties
as in the table, and there is only one such list.  Columns of mixed kinds are not in an order, and
there a filter may change how the rows that pass it are sorted.
-/

namespace EntityService

open EntityService.Json EntityService.Model EntityService.Query EntityService.Store

/-! ## Filters among other calls -/

namespace Query

/-- The calls that are not filters. -/
def Calls.rest (calls : Calls) : Calls := calls.filter (!·.isFilter)

/-- Other calls have the same filters, in whatever order and number, and besides them the same
calls in the same order. -/
structure Calls.FilterAlike (calls others : Calls) : Prop where
  filters : ∀ f, f ∈ others.filters ↔ f ∈ calls.filters
  rest : others.rest = calls.rest

namespace Calls.FilterAlike

variable {calls others more : Calls}

theorem trans (h : FilterAlike calls others) (hmore : FilterAlike others more) :
    FilterAlike calls more where
  filters f := (hmore.filters f).trans (h.filters f)
  rest := hmore.rest.trans h.rest

variable (before between after : Calls) {f : Call} (hf : f.isFilter)

include hf

/-- A filter may be made later. -/
theorem move :
    FilterAlike (before ++ f :: (between ++ after)) (before ++ (between ++ f :: after)) where
  filters g := by
    simp only [Calls.filters, List.mem_filter, List.mem_append, List.mem_cons, or_left_comm]
  rest := by simp [Calls.rest, hf]

/-- A filter may be made once more. -/
theorem repeated : FilterAlike (before ++ f :: after) (before ++ f :: f :: after) where
  filters g := by
    simp only [Calls.filters, List.mem_filter, List.mem_append, List.mem_cons, or_self_left]
  rest := by simp [Calls.rest, hf]

end Calls.FilterAlike

/-! ### Views that see no filters -/

namespace Calls

/-- What is seen of calls by a view that sees no filters is seen of the calls besides them. -/
theorem filterMap_rest {α : Type} {view : Call → Option α}
    (h : ∀ call, call.isFilter → view call = none) (calls : Calls) :
    calls.rest.filterMap view = calls.filterMap view := by
  rw [rest, List.filterMap_filter]
  refine congrArg (List.filterMap · calls) (funext fun call => ?_)
  cases hfilter : call.isFilter with
  | false => rfl
  | true => exact (h call hfilter).symm

variable {calls others : Calls} (h : others.rest = calls.rest)

include h

theorem filterMap_congr_rest {α : Type} {view : Call → Option α}
    (hview : ∀ call, call.isFilter → view call = none) :
    others.filterMap view = calls.filterMap view := by
  rw [← filterMap_rest hview others, h, filterMap_rest hview calls]

theorem orders_congr_rest : others.orders = calls.orders :=
  filterMap_congr_rest h fun call hcall => by cases call <;> first | rfl | cases hcall

theorem relations_congr_rest : others.relations = calls.relations :=
  congrArg List.eraseDups <|
    filterMap_congr_rest h fun call hcall => by cases call <;> first | rfl | cases hcall

theorem counts_congr_rest : others.counts = calls.counts :=
  congrArg List.eraseDups <|
    filterMap_congr_rest h fun call hcall => by cases call <;> first | rfl | cases hcall

theorem limit?_congr_rest : others.limit? = calls.limit? :=
  congrArg List.getLast? <|
    filterMap_congr_rest h fun call hcall => by cases call <;> first | rfl | cases hcall

end Calls

end Query

/-! ## Rows -/

namespace Store

variable {store : Memory} {p q : Plan} {f : Call}

section Rest

variable (hentity : q.entity = p.entity) (h : q.calls.rest = p.calls.rest)

include hentity h

theorem orders_eq_of_rest : q.orders = p.orders := by
  rw [Plan.orders, Calls.effectiveOrders, Calls.directedOrders, Calls.orders_congr_rest h, hentity,
    Plan.orders, Calls.effectiveOrders, Calls.directedOrders]

/-- How a row is given out does not depend on the filters. -/
theorem shown_eq_of_rest (columns : List String) :
    store.shown q columns = store.shown p columns := by
  funext row
  have hpaths : store.knownPaths q = store.knownPaths p := by
    rw [Memory.knownPaths, Calls.relations_congr_rest h, hentity, Memory.knownPaths]
  rw [Memory.shown, hpaths, Memory.counted, Calls.counts_congr_rest h, hentity, Memory.shown,
    Memory.counted]

end Rest

/-- It does not matter to the rows of a plan where its filters stand. -/
theorem selected_filterAlike (hentity : q.entity = p.entity) (h : p.calls.FilterAlike q.calls) :
    store.selected q = store.selected p := by
  have hpasses : passesAll q = passesAll p := by
    funext row
    rw [Bool.eq_iff_iff, passesAll, List.all_eq_true, passesAll, List.all_eq_true]
    simp only [h.filters]
  rw [Memory.selected, selection, orders_eq_of_rest hentity h.rest, hpasses, hentity,
    Memory.selected, selection]

section Add

variable (hf : f.isFilter)

include hf

theorem rest_add : (p.add f).calls.rest = p.calls.rest := by simp [Plan.add, Calls.rest, hf]

theorem filter_passesAll_add (rows : List Record) :
    rows.filter (passesAll (p.add f)) = (rows.filter (passesAll p)).filter (passes · f) := by
  rw [List.filter_filter]
  refine List.filter_congr fun row _ => ?_
  simp [passesAll, Plan.add, Calls.filters, hf, Bool.and_comm]

/-- One filter more takes the rows out that do not pass it, and leaves the others in their order. -/
theorem selected_add
    (hkinds : ∀ key ∈ p.orders, HasOneKind key.1 ((store.rows p.entity.id).filter (passesAll p))) :
    store.selected (p.add f) = (store.selected p).filter (passes · f) := by
  let passing := (store.rows p.entity.id).filter (passesAll p)
  have horders : (p.add f).orders = p.orders := orders_eq_of_rest rfl (rest_add hf)
  have hrows : (store.rows p.entity.id).filter (passesAll (p.add f)) =
      passing.filter (passes · f) := filter_passesAll_add hf _
  have horder : IsOrderOn (rowOrder p.orders) (passing.filter (passes · f)) :=
    (isOrderOn_rowOrder hkinds).subset List.filter_sublist.subset
  -- both are the one list of these rows in order
  have hsorted : IsStableSort (rowOrder p.orders) (store.selected (p.add f))
      (passing.filter (passes · f)) := by
    rw [Memory.selected, selection, horders]
    exact hrows ▸ horder.isStableSort_mergeSort
  exact hsorted.eq ((isStableSort_selection hkinds).filter (passes · f)) horder

end Add

/-- Filters narrow what is read by a plan without a limit.  Wherever they stand among its calls and
however often, the rows, their count and the pages are the same; one filter more leaves the rows
that pass it, in the order in which they were; and the count is the total of every page and the
number of the rows. -/
theorem filters_narrow (columns : List String) (hlimit : p.calls.limit? = none)
    (hkinds : ∀ key ∈ p.orders, HasOneKind key.1 ((store.rows p.entity.id).filter (passesAll p))) :
    (∀ others : Calls, p.calls.FilterAlike others →
      let q : Plan := { p with calls := others }
      (Storage.get q columns store).1 = (Storage.get p columns store).1 ∧
      (Storage.count q store).1 = (Storage.count p store).1 ∧
      ∀ perPage page, (Storage.paginate q columns perPage page store).1 =
        (Storage.paginate p columns perPage page store).1) ∧
    ((Storage.get p columns store).1 = .ok ((store.selected p).map (store.shown p columns)) ∧
      ∀ f : Call, f.isFilter → (Storage.get (p.add f) columns store).1 =
        .ok (((store.selected p).filter (passes · f)).map (store.shown p columns))) ∧
    ∃ count, (Storage.count p store).1 = .ok count ∧
      (∃ rows, (Storage.get p columns store).1 = .ok rows ∧ rows.length = count) ∧
      ∀ perPage page, ∃ shown : Page Value,
        (Storage.paginate p columns perPage page store).1 = .ok shown ∧ shown.total = count := by
  have hget : (Storage.get p columns store).1 =
      .ok ((store.selected p).map (store.shown p columns)) := by
    rw [Memory.get_fst, hlimit, limited]
  have hcount (q : Plan) : (Storage.count q store).1 = .ok (store.selected q).length := by
    simp only [Storage.count, Memory.record_selected]
  refine ⟨?_, ⟨hget, fun f hf => ?_⟩, ?_⟩
  · intro others h q
    have hselected : store.selected q = store.selected p := selected_filterAlike rfl h
    have hshown : store.shown q columns = store.shown p columns :=
      shown_eq_of_rest (p := p) (q := q) rfl h.rest columns
    refine ⟨?_, ?_, fun perPage page => ?_⟩
    · rw [Memory.get_fst, hselected, hshown, Calls.limit?_congr_rest h.rest, Memory.get_fst]
    · rw [hcount, hselected, hcount]
    · rw [Memory.paginate_fst, hselected, hshown, Memory.paginate_fst]
  · have hshown : store.shown (p.add f) columns = store.shown p columns :=
      shown_eq_of_rest (p := p) (q := p.add f) rfl (rest_add hf) columns
    rw [Memory.get_fst, Calls.limit?_congr_rest (rest_add hf), hlimit, limited,
      selected_add hf hkinds, hshown]
  · exact ⟨_, hcount p, ⟨_, hget, List.length_map ..⟩, fun _ _ => ⟨_, Memory.paginate_fst .., rfl⟩⟩

open Bookcase in
/-- The books in print with the longest ones first, asked for twice to be in print and that at the
end, and then those among them whose pages are known. -/
theorem filters_narrow_bookcase :
    let inPrint : Call := .compare "is_active" .eq (.ofInt 1)
    let known : Call := .nullness "pages" false
    let others : Calls :=
      [.orderBy "title" "sideways", .orderBy "pages" "DESC", inPrint, inPrint]
    longest.calls = [.orderBy "title" "sideways", inPrint, .orderBy "pages" "DESC"] ∧
      (Storage.get { longest with calls := others } [] Bookcase.store).1 =
        (Storage.get longest [] Bookcase.store).1 ∧
      (Storage.get (longest.add known) [] Bookcase.store).1 =
        .ok (((Bookcase.store.selected longest).filter (passes · known)).map
          (Bookcase.store.shown longest [])) := by
  intro inPrint known others
  have hkinds : ∀ key ∈ longest.orders,
      HasOneKind key.1 ((Bookcase.store.rows longest.entity.id).filter (passesAll longest)) := by
    decide +kernel
  have hothers : longest.calls.FilterAlike others :=
    (Calls.FilterAlike.move [.orderBy "title" "sideways"] [.orderBy "pages" "DESC"] [] rfl).trans
      (Calls.FilterAlike.repeated [.orderBy "title" "sideways", .orderBy "pages" "DESC"] [] rfl)
  obtain ⟨hsame, ⟨-, hadd⟩, -⟩ := filters_narrow [] rfl hkinds
  exact ⟨rfl, (hsame others hothers).1, hadd known rfl⟩

end Store

end EntityService
