import EntityService.Proofs.Bookshop
import EntityService.Proofs.StableOrder

/-!
# Rows in order

The rows of a plan are the rows that pass its filters, in the lexicographic order of its columns.

## Main definitions

* `HasOneKind` — the cells of a column can be put in order
* `ComesBefore` — a cell comes before another one in ascending order
* `Leads`, `AreTied` — a row comes before another one, or neither does, by one column
* `Precedes` — a row comes before another one by the first column that tells them apart

## Main results

* `isOrderOn_rowOrder` — rows whose columns are of one kind are put in order by them
* `rowOrder_eq_lt_iff`, `rowOrder_eq_eq_iff` — what the order of two rows says
* `selected_is_stable_sort` — the rows of a plan

## Design notes

Numbers and texts are each in order, but not both together: a number is compared with a text that
spells none as a text, so that 10, 9 and "9 or more" would go round in a circle.  Null has its place
beside all of them.
-/

namespace EntityService.Store

open EntityService.Json EntityService.Model EntityService.Number

/-! ## The order that is meant -/

/-- A cell is null, or it stands for a number that has a place in the numerical order. -/
def IsNullOrNumeric (v : Value) : Prop :=
  v.isNull ∨ ∃ x, numberOf? v = some x ∧ x.isNaN = false

/-- The cells of a column that are not null all stand for numbers, or none of them does. -/
def HasOneKind (column : String) (rows : List Record) : Prop :=
  (∀ row ∈ rows, IsNullOrNumeric (Record.cell row column)) ∨
    ∀ row ∈ rows, numberOf? (Record.cell row column) = none

instance : DecidablePred IsNullOrNumeric := fun v =>
  decidable_of_iff (v.isNull || (numberOf? v).any (!·.isNaN)) (by
    rw [Bool.or_eq_true, Option.any_eq_true, IsNullOrNumeric]
    simp only [Bool.not_eq_true'])

instance (column : String) (rows : List Record) : Decidable (HasOneKind column rows) :=
  inferInstanceAs (Decidable (_ ∨ _))

/-- A cell comes before another one in ascending order: anything before null, numbers by their
values, and texts by their characters. -/
inductive ComesBefore : Value → Value → Prop
  | null {a b : Value} (ha : a.isNull = false) (hb : b.isNull) : ComesBefore a b
  | number {a b : Value} {x y : Double} (ha : numberOf? a = some x) (hb : numberOf? b = some y)
      (h : x.order? y = some .lt) : ComesBefore a b
  | text {a b : Value} (ha : a.isNull = false) (hb : b.isNull = false)
      (hna : numberOf? a = none) (hnb : numberOf? b = none) (h : a.plainText < b.plainText) :
      ComesBefore a b

/-- A row comes before another one by a column; in descending order the cells change places. -/
def Leads (key : String × Bool) (a b : Record) : Prop :=
  if key.2 then ComesBefore (Record.cell b key.1) (Record.cell a key.1)
  else ComesBefore (Record.cell a key.1) (Record.cell b key.1)

/-- A column does not tell two rows apart. -/
def AreTied (key : String × Bool) (a b : Record) : Prop := ¬Leads key a b ∧ ¬Leads key b a

/-- A row comes before another one by the first column that tells them apart. -/
def Precedes : List (String × Bool) → Record → Record → Prop
  | [], _, _ => False
  | key :: rest, a, b => Leads key a b ∨ AreTied key a b ∧ Precedes rest a b

/-! ## The order of cells -/

/-- The place of the number that a value stands for, zero when it stands for none. -/
def placeOf (v : Value) : Int := ((numberOf? v).map Double.place).getD 0

section Cells

variable {a b : Value}

/-- Null comes after everything else. -/
theorem sortOrder_eq_then {rest : Ordering} (hnull : a = .null → b = .null → rest = .eq)
    (h : a.isNull = false → b.isNull = false → compareCells? a b = some rest) :
    sortOrder a b = (compare a.isNull b.isNull).then rest := by
  unfold sortOrder
  cases ha : a.isNull with
  | true =>
      cases hb : b.isNull with
      | true =>
          rw [hnull (Value.eq_null_of_isNull ha) (Value.eq_null_of_isNull hb)]
          rfl
      | false => rfl
  | false =>
      cases hb : b.isNull with
      | true => rfl
      | false =>
          rw [h ha hb]
          rfl

/-- Numbers are put in order by their places. -/
theorem sortOrder_of_numeric (ha : IsNullOrNumeric a) (hb : IsNullOrNumeric b) :
    sortOrder a b = (compare a.isNull b.isNull).then (compare (placeOf a) (placeOf b)) := by
  refine sortOrder_eq_then ?_ fun hna hnb => ?_
  · rintro rfl rfl
    rfl
  · obtain ⟨x, hx, hxnan⟩ := ha.resolve_left (Bool.eq_false_iff.mp hna)
    obtain ⟨y, hy, hynan⟩ := hb.resolve_left (Bool.eq_false_iff.mp hnb)
    rw [compareCells?, hna, hnb, placeOf, placeOf, hx, hy]
    dsimp only
    rw [Double.order?, hxnan, hynan]
    rfl

/-- What stands for no number is put in order by its text. -/
theorem sortOrder_of_text (ha : numberOf? a = none) (hb : numberOf? b = none) :
    sortOrder a b = (compare a.isNull b.isNull).then (compare a.plainText b.plainText) := by
  refine sortOrder_eq_then ?_ fun hna hnb => ?_
  · rintro rfl rfl
    exact Std.compare_self
  · rw [compareCells?, hna, hnb, ha, hb]
    rfl

/-- What stands for a number is not null. -/
theorem isNull_of_numberOf? {x : Double} (h : numberOf? a = some x) : a.isNull = false := by
  cases a with
  | null => cases h
  | _ => rfl

theorem sortOrder_of_numbers {x y : Double} (ha : numberOf? a = some x)
    (hb : numberOf? b = some y) : sortOrder a b = (x.order? y).getD .eq := by
  rw [sortOrder, compareCells?, isNull_of_numberOf? ha, isNull_of_numberOf? hb, ha, hb]
  rfl

/-- Cells of one kind are put in order as is meant. -/
theorem sortOrder_eq_lt_iff
    (h : (IsNullOrNumeric a ∧ IsNullOrNumeric b) ∨ (numberOf? a = none ∧ numberOf? b = none)) :
    sortOrder a b = .lt ↔ ComesBefore a b := by
  constructor
  · intro hlt
    cases hna : a.isNull with
    | true =>
        rw [sortOrder, hna] at hlt
        cases hnb : b.isNull <;> rw [hnb] at hlt <;> cases hlt
    | false =>
        cases hnb : b.isNull with
        | true => exact .null hna hnb
        | false =>
            rcases h with ⟨ha, hb⟩ | ⟨ha, hb⟩
            · obtain ⟨x, hx, -⟩ := ha.resolve_left (Bool.eq_false_iff.mp hna)
              obtain ⟨y, hy, -⟩ := hb.resolve_left (Bool.eq_false_iff.mp hnb)
              rw [sortOrder_of_numbers hx hy] at hlt
              refine .number hx hy ?_
              cases horder : x.order? y with
              | none => rw [horder] at hlt; cases hlt
              | some order => rw [horder] at hlt; exact congrArg some hlt
            · rw [sortOrder_of_text ha hb, hna, hnb] at hlt
              exact .text hna hnb ha hb (compareOfLessAndEq_eq_lt.mp hlt)
  · intro hbefore
    cases hbefore with
    | null hna hnb => rw [sortOrder, hna, hnb]
    | number hx hy hlt => rw [sortOrder_of_numbers hx hy, hlt, Option.getD_some]
    | text hna hnb ha hb hlt =>
        rw [sortOrder_of_text ha hb, hna, hnb]
        exact compareOfLessAndEq_eq_lt.mpr hlt

end Cells

/-! ## The order of rows -/

/-- The order of two rows by one column. -/
def keyOrder (key : String × Bool) (a b : Record) : Ordering :=
  let order := sortOrder (Record.cell a key.1) (Record.cell b key.1)
  if key.2 then order.swap else order

theorem rowOrder_cons (key : String × Bool) (rest : List (String × Bool)) (a b : Record) :
    rowOrder (key :: rest) a b = (keyOrder key a b).then (rowOrder rest a b) := rfl

section Rows

variable {rows : List Record} {key : String × Bool} {orders : List (String × Bool)}

/-- The cells of a column of one kind are in order. -/
theorem isOrderOn_sortOrder {column : String} (h : HasOneKind column rows) :
    IsOrderOn (fun a b => sortOrder (Record.cell a column) (Record.cell b column)) rows := by
  rcases h with hnumbers | htexts
  · exact isOrderOn_of_eq
      (compareLex (compareOn fun row => (Record.cell row column).isNull)
        (compareOn fun row => placeOf (Record.cell row column)))
      fun a ha b hb => sortOrder_of_numeric (hnumbers a ha) (hnumbers b hb)
  · exact isOrderOn_of_eq
      (compareLex (compareOn fun row => (Record.cell row column).isNull)
        (compareOn fun row => (Record.cell row column).plainText))
      fun a ha b hb => sortOrder_of_text (htexts a ha) (htexts b hb)

theorem isOrderOn_keyOrder (h : HasOneKind key.1 rows) : IsOrderOn (keyOrder key) rows := by
  obtain ⟨column, descending⟩ := key
  cases descending with
  | false => exact isOrderOn_sortOrder h
  | true => exact (isOrderOn_sortOrder h).descending

/-- Rows whose columns are of one kind each are put in order by them. -/
theorem isOrderOn_rowOrder (h : ∀ key ∈ orders, HasOneKind key.1 rows) :
    IsOrderOn (rowOrder orders) rows := by
  induction orders with
  | nil => exact isOrderOn_of_eq (compareOn fun _ => (0 : Int)) fun _ _ _ _ => rfl
  | cons key rest ih =>
      obtain ⟨hkey, hrest⟩ := List.forall_mem_cons.mp h
      exact (isOrderOn_keyOrder hkey).lex (ih hrest)

variable {a b : Record} (ha : a ∈ rows) (hb : b ∈ rows)

include ha hb

theorem keyOrder_eq_lt_iff (h : HasOneKind key.1 rows) :
    keyOrder key a b = .lt ↔ Leads key a b := by
  have hkinds (x y : Record) (hx : x ∈ rows) (hy : y ∈ rows) :=
    sortOrder_eq_lt_iff (h.imp (fun h => And.intro (h x hx) (h y hy))
      fun h => And.intro (h x hx) (h y hy))
  obtain ⟨column, descending⟩ := key
  cases descending with
  | false => exact hkinds a b ha hb
  | true =>
      have horder : IsOrderOn (keyOrder (column, true)) rows := isOrderOn_keyOrder h
      have hswap := horder.swap ha hb
      refine Iff.trans ?_ (hkinds b a hb ha)
      rw [hswap, keyOrder]
      simp

/-- A column leaves two rows tied when neither comes before the other one. -/
theorem keyOrder_eq_eq_iff (h : HasOneKind key.1 rows) :
    keyOrder key a b = .eq ↔ AreTied key a b := by
  rw [AreTied, ← keyOrder_eq_lt_iff ha hb h, ← keyOrder_eq_lt_iff hb ha h,
    (isOrderOn_keyOrder h).swap hb ha]
  cases keyOrder key a b <;> simp

theorem rowOrder_eq_lt_iff (h : ∀ key ∈ orders, HasOneKind key.1 rows) :
    rowOrder orders a b = .lt ↔ Precedes orders a b := by
  induction orders with
  | nil => exact iff_of_false nofun id
  | cons key rest ih =>
      obtain ⟨hkey, hrest⟩ := List.forall_mem_cons.mp h
      rw [rowOrder_cons, Ordering.then_eq_lt, keyOrder_eq_lt_iff ha hb hkey,
        keyOrder_eq_eq_iff ha hb hkey, ih hrest, Precedes]

theorem rowOrder_eq_eq_iff (h : ∀ key ∈ orders, HasOneKind key.1 rows) :
    rowOrder orders a b = .eq ↔ ∀ key ∈ orders, AreTied key a b := by
  induction orders with
  | nil => exact iff_of_true rfl nofun
  | cons key rest ih =>
      obtain ⟨hkey, hrest⟩ := List.forall_mem_cons.mp h
      rw [rowOrder_cons, Ordering.then_eq_eq, keyOrder_eq_eq_iff ha hb hkey, ih hrest,
        List.forall_mem_cons]

end Rows

/-- The rows of a plan are the stable sort of those that pass its filters. -/
theorem isStableSort_selection {p : Plan} {rows : List Record}
    (h : ∀ key ∈ p.orders, HasOneKind key.1 (rows.filter (passesAll p))) :
    IsStableSort (rowOrder p.orders) (selection p rows) (rows.filter (passesAll p)) :=
  (isOrderOn_rowOrder h).isStableSort_mergeSort

/-- The rows of a plan are the rows of the table that pass all filters, each as often as it is
there.  They are in the lexicographic order of the columns of the plan whose direction is known, or
of the primary key when there is none; null comes last in ascending order and first in descending
order; and rows that no column tells apart stand as they do in the table. -/
theorem selected_is_stable_sort {store : Memory} {p : Plan}
    (hkinds : ∀ key ∈ p.orders,
      HasOneKind key.1 ((store.rows p.entity.id).filter (passesAll p))) :
    let passing := (store.rows p.entity.id).filter (passesAll p)
    (store.selected p).Perm passing ∧
      (store.selected p).Pairwise (fun a b =>
        Precedes p.orders a b ∨ ∀ key ∈ p.orders, AreTied key a b) ∧
      ∀ part : List Record, part.Sublist passing →
        part.Pairwise (fun a b => ∀ key ∈ p.orders, AreTied key a b) →
          part.Sublist (store.selected p) := by
  intro passing
  have hsort := isStableSort_selection hkinds
  refine ⟨hsort.perm, ?_, ?_⟩
  · refine hsort.ascending.imp_of_mem fun {a b} ha hb hle => ?_
    have ha := hsort.perm.subset ha
    have hb := hsort.perm.subset hb
    rw [← rowOrder_eq_lt_iff ha hb hkinds, ← rowOrder_eq_eq_iff ha hb hkinds]
    cases horder : rowOrder p.orders a b with
    | lt => exact .inl rfl
    | eq => exact .inr rfl
    | gt => exact absurd horder hle
  · intro part hpart hties
    refine hsort.stable part hpart (hties.imp_of_mem fun {a b} ha hb htie => ?_)
    exact (rowOrder_eq_eq_iff (hpart.subset ha) (hpart.subset hb) hkinds).mpr htie

/-! ### Books by their length -/

namespace Bookcase

open EntityService.Bookshop EntityService.Query

/-- A book with a number of pages. -/
def paged (id : Int) (pages : Value) : Record := Record.put "pages" pages (book id 1 "")

/-- Two books of 90 pages, one of which has them as a text. -/
def twins : List Record := [paged 1 (.ofInt 90), paged 5 (.string " 9e1 ")]

/-- Books whose pages are numbers, texts that spell numbers, unknown, and, for one out of print, a
text that spells none. -/
def store : Memory :=
  { Bookshop.store "" with
    tables := [("books", ⟨[paged 1 (.ofInt 90), paged 2 (.string "310"),
      Record.put "is_active" (.ofInt 0) (paged 3 (.string "many")), book 4 1 "",
      paged 5 (.string " 9e1 "), paged 6 .null], 6⟩)] }

/-- The books in print with the longest ones first; the first direction is not known. -/
def longest : Plan where
  entity := books
  calls := [.orderBy "title" "sideways", .compare "is_active" .eq (.ofInt 1),
    .orderBy "pages" "DESC"]

end Bookcase

open Bookcase EntityService.Bookshop in
/-- A book whose pages are not known comes before the one of 310 pages, and the two of 90 pages
stand as they do in the table. -/
theorem selected_is_stable_sort_bookcase :
    longest.orders = [("pages", true)] ∧
      Precedes longest.orders (paged 6 .null) (paged 2 (.string "310")) ∧
      (Bookcase.store.selected longest).Pairwise (fun a b =>
        Precedes longest.orders a b ∨ ∀ key ∈ longest.orders, AreTied key a b) ∧
      twins.Sublist (Bookcase.store.selected longest) := by
  have hkinds : ∀ key ∈ longest.orders,
      HasOneKind key.1 ((Bookcase.store.rows books.id).filter (passesAll longest)) := by
    decide +kernel
  obtain ⟨-, hascending, hstable⟩ := selected_is_stable_sort hkinds
  have htwins : twins.Sublist ((Bookcase.store.rows books.id).filter (passesAll longest)) := by
    have hsublist : twins.Sublist (Bookcase.store.rows books.id) :=
      .cons_cons _ (.cons _ (.cons _ (.cons _ (.cons_cons _ (List.nil_sublist _)))))
    have hpass : ∀ row ∈ twins, passesAll longest row := by decide +kernel
    rw [← List.filter_eq_self.mpr hpass]
    exact hsublist.filter _
  have hties : twins.Pairwise fun a b => ∀ key ∈ longest.orders, AreTied key a b := by
    refine List.pairwise_of_forall_mem_list fun a ha b hb => ?_
    refine (rowOrder_eq_eq_iff (htwins.subset ha) (htwins.subset hb) hkinds).mp ?_
    revert a b
    decide +kernel
  exact ⟨by decide, .inl (.null rfl rfl), hascending, hstable twins htwins hties⟩

end EntityService.Store
