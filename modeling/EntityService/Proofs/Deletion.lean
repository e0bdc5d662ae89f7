import EntityService.Store.Related
import Mathlib.Data.List.Sigma

/-!
# Removal of planned rows

A removal takes the rows that have the same key as a row of its plan, and says how many rows its
plan is about.  Both come to the rows of the plan themselves exactly when keys tell these rows from
the others.

## Main definitions

* `planned` — the rows that a plan is about, with their places
* `unplanned` — the other rows, as they stand
* `IsToldApart` — keys tell the rows of a plan from the others

## Main results

* `map_fst_planned`, `unplanned_of_limit?_eq_none` — the rows that a plan is about
* `length_unplanned` — a row is planned or unplanned
* `delete_removes_planned_iff` — exactly the rows of a plan are removed when keys tell them apart
* `isToldApart_of_pairwise` — keys that are all different do

## Design notes

Rows may be equal to each other, so which of them a plan is about is a matter of their places.
-/

namespace EntityService.Store

open EntityService.Json EntityService.Model EntityService.Query

/-! ### Selections from a list -/

section Selections

variable {α β : Type} {f : α → β} {test : α → Bool} {wanted : β → Bool} {xs : List α}

/-- Two selections of items, one of which goes by what is shown of them, show the same only if they
select the same items. -/
theorem map_filter_eq_iff :
    (xs.filter (wanted ∘ f)).map f = (xs.filter test).map f ↔ ∀ x ∈ xs, test x = wanted (f x) := by
  constructor
  · intro heq
    -- what is shown of an item of either selection is wanted
    have hwanted : ∀ x ∈ xs.filter test, (wanted ∘ f) x := by
      intro x hx
      have hshown : f x ∈ (xs.filter (wanted ∘ f)).map f := heq ▸ List.mem_map_of_mem hx
      obtain ⟨y, hy, hyx⟩ := List.mem_map.mp hshown
      exact (congrArg wanted hyx).symm.trans (List.mem_filter.mp hy).2
    have hsub : (xs.filter test).Sublist (xs.filter (wanted ∘ f)) := by
      have h := (List.filter_sublist (p := test) (l := xs)).filter (wanted ∘ f)
      rwa [List.filter_eq_self.mpr hwanted] at h
    have hlength := congrArg List.length heq
    rw [List.length_map, List.length_map] at hlength
    have hsame : xs.filter test = xs.filter (wanted ∘ f) := hsub.eq_of_length hlength.symm
    intro x hx
    have hmem : x ∈ xs.filter test ↔ x ∈ xs.filter (wanted ∘ f) := by rw [hsame]
    rw [List.mem_filter, List.mem_filter, and_iff_right hx, and_iff_right hx] at hmem
    exact Bool.eq_iff_iff.mpr hmem
  · intro h
    rw [List.filter_congr h]
    rfl

theorem eq_of_mem_zipIdx {x y : α × Nat} (hx : x ∈ xs.zipIdx) (hy : y ∈ xs.zipIdx)
    (hplace : x.2 = y.2) : x = y := by
  obtain ⟨a, i⟩ := x
  obtain ⟨b, j⟩ := y
  obtain rfl : i = j := hplace
  have ha := List.mk_mem_zipIdx_iff_getElem?.mp hx
  have hb := List.mk_mem_zipIdx_iff_getElem?.mp hy
  rw [Option.some.inj (ha.symm.trans hb)]

theorem limited_sublist (limit : Option Nat) (xs : List α) : (limited limit xs).Sublist xs := by
  cases limit with
  | none => exact List.Sublist.refl xs
  | some n => exact List.take_sublist n xs

theorem map_limited (limit : Option Nat) (f : α → β) (xs : List α) :
    (limited limit xs).map f = limited limit (xs.map f) := by
  cases limit with
  | none => rfl
  | some n => exact List.map_take

end Selections

/-! ### Rows of a plan -/

/-- The rows that a plan is about, with their places: those that pass its filters, in its order and
up to its limit. -/
def planned (p : Plan) (rows : List Record) : List (Record × Nat) :=
  limited p.calls.limit? ((rows.zipIdx.filter (passesAll p ∘ Prod.fst)).mergeSort
    fun a b => rowOrder p.orders a.1 b.1 != .gt)

/-- The rows that a plan is not about, as they stand. -/
def unplanned (p : Plan) (rows : List Record) : List Record :=
  (rows.zipIdx.filter fun x => !(planned p rows).any fun y => y.2 == x.2).map Prod.fst

section Planned

variable {p : Plan} {rows : List Record} {x : Record × Nat}

/-- The rows that a plan is about are those of its selection. -/
theorem map_fst_planned (p : Plan) (rows : List Record) :
    (planned p rows).map Prod.fst = limited p.calls.limit? (selection p rows) := by
  have hsort : ∀ xs : List (Record × Nat),
      (xs.mergeSort fun a b => rowOrder p.orders a.1 b.1 != .gt).map Prod.fst =
        sortRows p.orders (xs.map Prod.fst) := fun _ => List.map_mergeSort fun _ _ _ _ => rfl
  rw [planned, map_limited, hsort, ← List.filter_map, List.zipIdx_map_fst, selection]

theorem mem_of_mem_planned (h : x ∈ planned p rows) : x ∈ rows.zipIdx ∧ passesAll p x.1 :=
  List.mem_filter.mp (List.mem_mergeSort.mp ((limited_sublist _ _).subset h))

theorem nodup_planned (p : Plan) (rows : List Record) : (planned p rows).Nodup := by
  have hplaces : rows.zipIdx.Nodup := (List.nodup_zipIdx_map_snd rows).of_map
  have hsorted := (List.mergeSort_perm (rows.zipIdx.filter (passesAll p ∘ Prod.fst))
    fun a b => rowOrder p.orders a.1 b.1 != .gt).nodup_iff.mpr (hplaces.filter _)
  exact hsorted.sublist (limited_sublist _ _)

theorem any_place_iff (hx : x ∈ rows.zipIdx) :
    ((planned p rows).any fun y => y.2 == x.2) ↔ x ∈ planned p rows := by
  rw [List.any_eq_true]
  constructor
  · rintro ⟨y, hy, hplace⟩
    rwa [← eq_of_mem_zipIdx (mem_of_mem_planned hy).1 hx (beq_iff_eq.mp hplace)]
  · exact fun hplanned => ⟨x, hplanned, beq_self_eq_true _⟩

/-- A plan without a limit is not about the rows that do not pass its filters. -/
theorem unplanned_of_limit?_eq_none (h : p.calls.limit? = none) :
    unplanned p rows = rows.filter fun row => !passesAll p row := by
  have hplanned : ∀ x ∈ rows.zipIdx,
      (!(planned p rows).any fun y => y.2 == x.2) = !passesAll p x.1 := by
    intro x hx
    rw [Bool.not_inj_iff, Bool.eq_iff_iff, any_place_iff hx, planned, h]
    exact List.mem_mergeSort.trans (by rw [List.mem_filter]; exact and_iff_right hx)
  rw [unplanned, List.filter_congr hplanned]
  conv_rhs => rw [← List.zipIdx_map_fst 0 rows, List.filter_map]
  rfl

/-- Each row is planned or unplanned, and no row is both. -/
theorem length_unplanned (p : Plan) (rows : List Record) :
    (unplanned p rows).length + (planned p rows).length = rows.length := by
  have hperm : (rows.zipIdx.filter fun x => (planned p rows).any fun y => y.2 == x.2).Perm
      (planned p rows) := by
    have hplaces : rows.zipIdx.Nodup := (List.nodup_zipIdx_map_snd rows).of_map
    refine (List.perm_ext_iff_of_nodup (hplaces.filter _) (nodup_planned p rows)).mpr fun x => ?_
    rw [List.mem_filter]
    constructor
    · exact fun ⟨hx, hplace⟩ => (any_place_iff hx).mp hplace
    · exact fun hx => ⟨(mem_of_mem_planned hx).1, (any_place_iff (mem_of_mem_planned hx).1).mpr hx⟩
  have hsplit := List.length_eq_length_filter_add (l := rows.zipIdx)
    fun x => (planned p rows).any fun y => y.2 == x.2
  rw [List.length_zipIdx, hperm.length_eq] at hsplit
  rw [unplanned, List.length_map]
  omega

end Planned

/-! ### Removal -/

/-- Keys tell the rows of a plan from the others: each row of the plan has the same key as one of
them, and no other row has. -/
structure IsToldApart (p : Plan) (rows : List Record) : Prop where
  found : ∀ x ∈ planned p rows, ∃ y ∈ planned p rows,
    Memory.hasKey p.entity (Record.cell y.1 p.entity.primaryKey) x.1
  apart : ∀ x ∈ rows.zipIdx, x ∉ planned p rows → ∀ y ∈ planned p rows,
    ¬Memory.hasKey p.entity (Record.cell y.1 p.entity.primaryKey) x.1

/-- A row has the key of a row of a plan. -/
def hasPlannedKey (p : Plan) (rows : List Record) (row : Record) : Bool :=
  (planned p rows).any fun y =>
    Memory.hasKey p.entity (Record.cell y.1 p.entity.primaryKey) row

/-- A removal leaves the rows that do not have the key of a row of its plan. -/
theorem rows_delete (store : Memory) (p : Plan) :
    ((Storage.delete p store).2.rows p.entity.id) =
      (store.rows p.entity.id).filter fun row =>
        !hasPlannedKey p (store.rows p.entity.id) row := by
  change ((store.record "delete" p).deleteRows p).2.rows p.entity.id = _
  rw [Memory.deleteRows_rows_self, Memory.record_rows, ← map_fst_planned, List.map_map]
  refine List.filter_congr fun row _ => ?_
  rw [hasPlannedKey, List.any_map]
  rfl

theorem isToldApart_iff {p : Plan} {rows : List Record} :
    IsToldApart p rows ↔ ∀ x ∈ rows.zipIdx,
      ((planned p rows).any fun y => y.2 == x.2) = hasPlannedKey p rows x.1 := by
  constructor
  · intro h x hx
    rw [Bool.eq_iff_iff, any_place_iff hx, hasPlannedKey, List.any_eq_true]
    constructor
    · exact h.found x
    · rintro ⟨y, hy, hkey⟩
      by_contra hother
      exact h.apart x hx hother y hy hkey
  · intro h
    have hiff : ∀ x ∈ rows.zipIdx, x ∈ planned p rows ↔ hasPlannedKey p rows x.1 := by
      intro x hx
      rw [← any_place_iff hx, h x hx]
    constructor
    · intro x hx
      exact List.any_eq_true.mp ((hiff x (mem_of_mem_planned hx).1).mp hx)
    · intro x hx hother y hy hkey
      exact hother ((hiff x hx).mpr (List.any_eq_true.mpr ⟨y, hy, hkey⟩))

/-- A removal says how many rows its plan is about, and changes the rows of no other entity.  It
removes exactly the rows of its plan, and so as many as it says, when keys tell these rows from the
others, and only then. -/
theorem delete_removes_planned_iff (store : Memory) (p : Plan) :
    let rows := store.rows p.entity.id
    let after := (Storage.delete p store).2
    (Storage.delete p store).1 = .ok (planned p rows).length ∧
      (∀ other, other ≠ p.entity.id → after.rows other = store.rows other) ∧
      (after.rows p.entity.id = unplanned p rows ∧
          (planned p rows).length + (after.rows p.entity.id).length = rows.length ↔
        IsToldApart p rows) := by
  intro rows after
  refine ⟨?_, ?_, ?_⟩
  · change Except.ok ((store.record "delete" p).deleteRows p).1 = _
    unfold Memory.deleteRows
    dsimp only
    rw [Memory.record_rows, ← map_fst_planned, List.length_map]
  · intro other hother
    change ((store.record "delete" p).deleteRows p).2.rows other = _
    rw [Memory.deleteRows_rows_of_ne _ _ hother, Memory.record_rows]
  · have hrows : after.rows p.entity.id =
        (rows.zipIdx.filter ((fun row => !hasPlannedKey p rows row) ∘ Prod.fst)).map Prod.fst := by
      rw [← List.filter_map, List.zipIdx_map_fst]
      exact rows_delete store p
    have hlength := length_unplanned p rows
    rw [isToldApart_iff]
    constructor
    · rintro ⟨hexact, -⟩
      rw [hrows, unplanned, map_filter_eq_iff] at hexact
      exact fun x hx => Bool.not_inj_iff.mp (hexact x hx)
    · intro h
      have hexact : after.rows p.entity.id = unplanned p rows := by
        rw [hrows, unplanned, map_filter_eq_iff]
        exact fun x hx => Bool.not_inj_iff.mpr (h x hx)
      exact ⟨hexact, by rw [hexact]; omega⟩

/-! ### Keys that are all different -/

/-- Keys tell the rows of each plan from the others when no two rows have the same key, and each key
is the same as itself. -/
theorem isToldApart_of_pairwise {p : Plan} {rows : List Record}
    (hself : ∀ row ∈ rows,
      sameCell (Record.cell row p.entity.primaryKey) (Record.cell row p.entity.primaryKey))
    (hrows : rows.Pairwise fun a b =>
      ¬sameCell (Record.cell a p.entity.primaryKey) (Record.cell b p.entity.primaryKey) ∧
        ¬sameCell (Record.cell b p.entity.primaryKey) (Record.cell a p.entity.primaryKey)) :
    IsToldApart p rows := by
  constructor
  · intro x hx
    have hmem : x.1 ∈ rows := (List.mem_zipIdx' (mem_of_mem_planned hx).1).2 ▸ List.getElem_mem _
    exact ⟨x, hx, hself x.1 hmem⟩
  · intro x hx hother y hy
    obtain ⟨a, i⟩ := x
    obtain ⟨b, j⟩ := y
    obtain ⟨hi, rfl⟩ := List.getElem?_eq_some_iff.mp (List.mk_mem_zipIdx_iff_getElem?.mp hx)
    obtain ⟨hj, rfl⟩ := List.getElem?_eq_some_iff.mp
      (List.mk_mem_zipIdx_iff_getElem?.mp (mem_of_mem_planned hy).1)
    have hne : i ≠ j := by
      rintro rfl
      exact hother hy
    rcases Nat.lt_or_gt_of_ne hne with hlt | hlt
    · exact (List.pairwise_iff_getElem.mp hrows i j hi hj hlt).1
    · exact (List.pairwise_iff_getElem.mp hrows j i hj hi hlt).2

/-! ### A store of parts -/

namespace Stockroom

/-- Parts with the texts of their numbers as keys. -/
def parts : Entity where
  id := "parts"
  schema := "public"
  table := "parts"
  pathSegment := "parts"
  primaryKey := "number"
  keyType := .text
  createdAt := "created_at"
  updatedAt := "updated_at"
  columns := []
  filterable := .of ["title"] "number" "created_at" "updated_at"
  activeFlag := none
  defaultSort := ⟨"number", "asc"⟩
  relations := []
  aggregates := []
  operations := ["create", "read", "update", "delete"]
  sensitive := []
  validation := []
  pageSize := 25

/-- A part. -/
def part (number title : String) : Value :=
  .object [("number", .string number), ("title", .string title)]

/-- A store without parts. -/
def empty : Memory where
  model := ⟨[parts]⟩
  clock := "2000-01-01T00:00:00+00:00"
  identifiers := fun n => ⟨(Nat.toDigits 16 n).leftpad 32 '0'⟩

/-- Three parts; two of the numbers are the same as numbers, and one spells a NaN. -/
def stock : Memory :=
  (Memory.seed "parts" [part "1" "bolt", part "01" "nut", part "nan" "washer"] empty).2

/-- The parts with a title. -/
def titled (title : String) : Plan := ⟨parts, [.compare "title" .eq (.string title)]⟩

/-- The titles of rows. -/
def titles (rows : List Record) : List String :=
  rows.map fun row => (Record.cell row "title").plainText

end Stockroom

open Stockroom in
/-- A removal of the bolts takes the nuts as well, although it counts one part, and a removal of the
washers takes nothing, although it counts one, too. -/
theorem delete_strays_parts :
    ((Storage.delete (titled "bolt") stock).1.toOption = some 1 ∧
        titles (unplanned (titled "bolt") (stock.rows "parts")) = ["nut", "washer"] ∧
        titles ((Storage.delete (titled "bolt") stock).2.rows "parts") = ["washer"]) ∧
      (Storage.delete (titled "washer") stock).1.toOption = some 1 ∧
        titles (unplanned (titled "washer") (stock.rows "parts")) = ["bolt", "nut"] ∧
        titles ((Storage.delete (titled "washer") stock).2.rows "parts") =
          ["bolt", "nut", "washer"] := by
  decide +kernel

end EntityService.Store
