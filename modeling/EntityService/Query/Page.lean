/-!
# Pages

One page of the rows of a query, with the totals.

## Main definitions

* `Page` — rows, total, page size, number of the page and number of the last one
* `Page.of` — the page with its totals
* `Page.offset` — the count of rows before a page
* `Page.window` — the rows of a page among all rows

## Main results

* `Page.flatMap_window` — the pages up to the last one hold all rows, each once and in order
* `Page.length_window`, `Page.window_eq_nil` — pages before the last one are full, pages after it
  empty

## Design notes

An offset is never larger than the largest row count, whatever the size and number of the page.
-/

namespace EntityService.Query

/-- The largest count of rows, and the largest offset. -/
def maxRows : Nat := 0x7FFFFFFFFFFFFFFF

/-- One page of rows. -/
structure Page (α : Type) where
  rows : List α
  total : Nat
  perPage : Nat
  current : Nat
  last : Nat
  deriving DecidableEq, Repr

namespace Page

/-- The count of pages.  A page holds at least one row, and there is always a first page. -/
def countOf (total perPage : Nat) : Nat :=
  max ((total + max perPage 1 - 1) / max perPage 1) 1

/-- The page of the given rows with its totals. -/
def of {α : Type} (rows : List α) (total perPage current : Nat) : Page α :=
  { rows, total, perPage := max perPage 1, current, last := countOf total perPage }

/-- The page with its rows changed one by one. -/
def mapRows {α β : Type} (f : α → β) (p : Page α) : Page β :=
  { rows := p.rows.map f, total := p.total, perPage := p.perPage, current := p.current
    last := p.last }

/-- The count of rows before a page; pages are numbered from one. -/
def offset (perPage page : Nat) : Nat :=
  min ((page - 1) * max perPage 1) maxRows

/-- The rows of a page among all rows. -/
def window {α : Type} (perPage page : Nat) (rows : List α) : List α :=
  (rows.drop (offset perPage page)).take (max perPage 1)

/-! ### The pages of a list -/

section Window

variable {α β : Type} {rows : List α} {n page : Nat}

theorem window_subset (rows : List α) (n page : Nat) : window n page rows ⊆ rows :=
  fun _ hrow => List.mem_of_mem_drop (List.mem_of_mem_take hrow)

theorem map_window (f : α → β) (rows : List α) (n page : Nat) :
    (window n page rows).map f = window n page (rows.map f) := by
  rw [window, window, List.map_take, List.map_drop]

/-- The bound on offsets has no effect on lists that are not longer than it. -/
theorem window_eq (hsize : rows.length ≤ maxRows) (hn : 1 ≤ n) :
    window n page rows = (rows.drop ((page - 1) * n)).take n := by
  rw [window, offset, Nat.max_eq_left hn]
  rcases Nat.le_total ((page - 1) * n) maxRows with hle | hle
  · rw [Nat.min_eq_left hle]
  · -- beyond the bound there is nothing left, with or without it
    rw [Nat.min_eq_right hle, List.drop_of_length_le hsize,
      List.drop_of_length_le (Nat.le_trans hsize hle)]

/-- The pages up to one hold the rows up to its end. -/
theorem flatMap_window_range (hsize : rows.length ≤ maxRows) (hn : 1 ≤ n) (count : Nat) :
    (List.range count).flatMap (fun i => window n (i + 1) rows) = rows.take (count * n) := by
  induction count with
  | zero => rw [Nat.zero_mul, List.take_zero, List.range_zero, List.flatMap_nil]
  | succ count ih =>
      rw [List.range_succ, List.flatMap_append, ih, List.flatMap_singleton, window_eq hsize hn,
        Nat.add_sub_cancel, Nat.succ_mul, List.take_add]

/-- The pages have room for all rows. -/
theorem le_countOf_mul (total : Nat) (hn : 1 ≤ n) : total ≤ countOf total n * n := by
  -- rounding up loses less than one page
  have hdiv : total + n - 1 < (total + n - 1) / n * n + n := Nat.lt_div_mul_add hn
  have hceil : total ≤ (total + n - 1) / n * n := by omega
  rw [countOf, Nat.max_eq_left hn]
  exact Nat.le_trans hceil (Nat.mul_le_mul_right n (Nat.le_max_left _ _))

/-- A page before the last one ends within the rows. -/
theorem mul_lt_of_lt_countOf {total : Nat} (hn : 1 ≤ n) (hpage : 1 ≤ page)
    (hlast : page < countOf total n) : page * n < total := by
  rw [countOf, Nat.max_eq_left hn] at hlast
  have hceil : page + 1 ≤ (total + n - 1) / n := by omega
  have hmul : (page + 1) * n ≤ total + n - 1 := (Nat.le_div_iff_mul_le hn).mp hceil
  rw [Nat.succ_mul] at hmul
  omega

/-- There are no more pages than rows, but for the first one. -/
theorem countOf_le (total : Nat) (hn : 1 ≤ n) : countOf total n ≤ max total 1 := by
  rcases Nat.lt_or_ge 1 (countOf total n) with hlast | hlast
  · -- the last page but one holds at least one row for each page up to it
    have hmul : (countOf total n - 1) * n < total :=
      mul_lt_of_lt_countOf hn (by omega) (by omega)
    have hle : countOf total n - 1 ≤ (countOf total n - 1) * n := Nat.le_mul_of_pos_right _ hn
    omega
  · omega

/-- The pages up to the last one hold all rows. -/
theorem flatMap_window (hsize : rows.length ≤ maxRows) (hn : 1 ≤ n) :
    (List.range (countOf rows.length n)).flatMap (fun i => window n (i + 1) rows) = rows := by
  rw [flatMap_window_range hsize hn]
  exact List.take_of_length_le (le_countOf_mul rows.length hn)

example : (List.range (countOf 3 2)).map (fun i => window 2 (i + 1) ["a", "b", "c"]) =
    [["a", "b"], ["c"]] := by decide

/-- Each page before the last one is full. -/
theorem length_window (hsize : rows.length ≤ maxRows) (hn : 1 ≤ n) (hpage : 1 ≤ page)
    (hlast : page < countOf rows.length n) : (window n page rows).length = n := by
  have hend : page * n < rows.length := mul_lt_of_lt_countOf hn hpage hlast
  have hstart : (page - 1) * n + n = page * n := by
    rw [← Nat.succ_mul]
    congr 1
    omega
  rw [window_eq hsize hn, List.length_take, List.length_drop]
  omega

/-- There is nothing on a page after the last one. -/
theorem window_eq_nil (hsize : rows.length ≤ maxRows) (hn : 1 ≤ n)
    (hlast : countOf rows.length n < page) : window n page rows = [] := by
  have hroom : rows.length ≤ countOf rows.length n * n := le_countOf_mul rows.length hn
  have hstart : countOf rows.length n * n ≤ (page - 1) * n :=
    Nat.mul_le_mul_right n (by omega)
  rw [window_eq hsize hn, List.drop_of_length_le (Nat.le_trans hroom hstart), List.take_nil]

end Window

end Page

end EntityService.Query
