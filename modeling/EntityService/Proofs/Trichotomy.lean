import EntityService.Proofs.Comparison

/-!
# Trichotomy of comparisons

A cell is equal to a value, less or greater, and the filters for the three are told apart.  Only a
NaN has no place in this order.

## Main definitions

* `standsForNaN` — a value stands for a NaN
* `areUnordered` — two values cannot be put in order
* `ObeysTrichotomy` — exactly one of the three filters keeps a row, and the others are their
  opposites

## Main results

* `standsForNaN_iff` — the values that stand for a NaN are the texts that spell one
* `compareCells?_eq_none_iff` — values that are not null are compared unless they are unordered
* `obeysTrichotomy_iff` — the values for which filters obey trichotomy
* `filters_drop_nan` — a text that spells a NaN is kept by no filter, not even the one for itself
-/

namespace EntityService.Store

open EntityService.Json EntityService.Number EntityService.Query

/-- A value stands for a NaN. -/
def standsForNaN (v : Value) : Bool := (numberOf? v).any Double.isNaN

/-- Two values cannot be put in order: both stand for numbers, and at least one of them for a
NaN. -/
def areUnordered (a b : Value) : Bool :=
  (numberOf? a).isSome && (numberOf? b).isSome && (standsForNaN a || standsForNaN b)

/-- A value that stands for a NaN is a text that spells one: the word for it in letters of any case,
maybe after a sign, between white space. -/
theorem standsForNaN_iff {v : Value} (h : v.IsFinite) :
    standsForNaN v ↔
      ∃ s, v = .string s ∧ lowerWord (cutSign (Text.trim s).toList).2 = "nan" := by
  constructor
  · intro hnan
    obtain ⟨x, hx, hxnan⟩ : ∃ x, numberOf? v = some x ∧ x.isNaN := by
      simpa [standsForNaN, Option.any_eq_true] using hnan
    cases v with
    | number n =>
        obtain rfl : n.toDouble = x := Option.some.inj hx
        cases n with
        | integer n => exact absurd hxnan (Bool.eq_false_iff.mp (Double.isNaN_ofInt n))
        | real x => exact absurd hxnan (Bool.eq_false_iff.mp (Double.isNaN_of_isFinite h))
    | string s => exact ⟨s, rfl, lowerWord_of_isNaN hx hxnan⟩
    | null | bool | array | object => cases hx
  · rintro ⟨s, rfl, hword⟩
    have hread : numberOf? (.string s) = some Double.nan := by
      rw [numberOf?, readDouble?]
      dsimp only
      rw [hword]
      rfl
    rw [standsForNaN, hread]
    rfl

section Comparison

variable {a b : Value}

/-- Values that are not null are compared, unless they are unordered. -/
theorem compareCells?_eq_none_iff (ha : a.isNull = false) (hb : b.isNull = false) :
    compareCells? a b = none ↔ areUnordered a b := by
  unfold compareCells? areUnordered standsForNaN
  rw [ha, hb]
  cases numberOf? a with
  | none => simp
  | some x =>
      cases numberOf? b with
      | none => simp
      | some y =>
          simp only [Bool.or_false, Double.order?, Option.any_some, Option.isSome_some,
            Bool.true_and]
          cases x.isNaN <;> cases y.isNaN <;> simp

theorem areUnordered_self (v : Value) : areUnordered v v = standsForNaN v := by
  unfold areUnordered standsForNaN
  cases numberOf? v <;> simp

end Comparison

/-! ### Filters -/

/-- The filters for a value obey trichotomy on a row: exactly one of those for equal, less and
greater cells keeps the row, and each of the other three keeps it when its opposite does not. -/
structure ObeysTrichotomy (row : Record) (column : String) (v : Value) : Prop where
  one : [.eq, .lt, .gt].countP (fun op => passes row (.compare column op v)) = 1
  notEq : passes row (.compare column .notEq v) = !passes row (.compare column .eq v)
  lte : passes row (.compare column .lte v) = !passes row (.compare column .gt v)
  gte : passes row (.compare column .gte v) = !passes row (.compare column .lt v)

section Filters

variable {row : Record} {column : String} {v : Value}

theorem obeysTrichotomy_of_eq_some (hv : v.isNull = false) {order : Ordering}
    (h : compareCells? (Record.cell row column) v = some order) :
    ObeysTrichotomy row column v := by
  constructor <;> cases order <;> simp [passes, compares, hv, h]

theorem passes_of_eq_none (hv : v.isNull = false)
    (h : compareCells? (Record.cell row column) v = none) {op : Comparison} (hop : op ≠ .like) :
    passes row (.compare column op v) = false := by
  cases op <;> simp_all [passes, compares]

/-- The filters for a value obey trichotomy on a row if and only if its cell and the value can be
put in order, and if they cannot, none of the filters keeps the row.  The filter for the cell itself
keeps the row unless the cell stands for a NaN. -/
theorem obeysTrichotomy_iff (hcell : (Record.cell row column).isNull = false)
    (hv : v.isNull = false) :
    (ObeysTrichotomy row column v ↔ ¬areUnordered (Record.cell row column) v) ∧
      (areUnordered (Record.cell row column) v →
        ∀ op ≠ .like, passes row (.compare column op v) = false) ∧
      (passes row (.compare column .eq (Record.cell row column)) ↔
        ¬standsForNaN (Record.cell row column)) := by
  have hnone := compareCells?_eq_none_iff hcell hv
  have hself := compareCells?_eq_none_iff hcell hcell
  refine ⟨⟨?_, ?_⟩, ?_, ?_⟩
  · intro htrichotomy hunordered
    have hdrop : ∀ op ≠ .like, passes row (.compare column op v) = false :=
      fun _ hop => passes_of_eq_none hv (hnone.mpr hunordered) hop
    have hone := htrichotomy.one
    simp [hdrop] at hone
  · intro hordered
    obtain ⟨order, horder⟩ := Option.ne_none_iff_exists'.mp (mt hnone.mp hordered)
    exact obeysTrichotomy_of_eq_some hv horder
  · intro hunordered op hop
    exact passes_of_eq_none hv (hnone.mpr hunordered) hop
  · rw [passes, compares, hcell, if_neg Bool.false_ne_true]
    rw [areUnordered_self] at hself
    constructor
    · intro hkept hnan
      rw [hself.mpr hnan] at hkept
      cases hkept
    · intro hnumber
      refine sameCell_self hcell fun x hx => ?_
      simpa [standsForNaN, Option.mem_def.mp hx] using hnumber

end Filters

/-- A price is compared as a number with a text that spells one, and as a text with one that does
not. -/
theorem obeysTrichotomy_iff_price :
    let row : Record := [("price", .ofInt 12)]
    (ObeysTrichotomy row "price" (.string " +1.2e1 ") ∧
      passes row (.compare "price" .eq (.string " +1.2e1 "))) ∧
      (ObeysTrichotomy row "price" (.string "9 or more") ∧
        passes row (.compare "price" .lt (.string "9 or more"))) ∧
      passes row (.compare "price" .eq (.ofInt 12)) := by
  intro row
  refine ⟨⟨?_, by decide +kernel⟩, ⟨?_, by decide +kernel⟩, ?_⟩
  · exact (obeysTrichotomy_iff rfl rfl).1.mpr (by decide +kernel)
  · exact (obeysTrichotomy_iff rfl rfl).1.mpr (by decide +kernel)
  · exact (obeysTrichotomy_iff (v := .ofInt 12) rfl rfl).2.2.mpr (by decide +kernel)

/-- A row with the name Nan is kept by no filter for this name, nor by one for its opposite.  The
same is so for a number and this name. -/
theorem filters_drop_nan :
    let operators : List Comparison := [.eq, .notEq, .lt, .lte, .gt, .gte]
    let keeps (cell v : Value) (op : Comparison) : Bool :=
      passes [("name", cell)] (.compare "name" op v)
    (∀ op ∈ operators, keeps (.string "Nan") (.string "Nan") op = false) ∧
      (∀ op ∈ operators, keeps (.ofInt 12) (.string "Nan") op = false) ∧
      ¬ObeysTrichotomy [("name", .string "Nan")] "name" (.string "Nan") := by
  refine ⟨by decide +kernel, by decide +kernel, ?_⟩
  intro htrichotomy
  exact absurd htrichotomy.one (by decide +kernel)

end EntityService.Store
