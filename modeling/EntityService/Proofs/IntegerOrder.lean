import EntityService.Proofs.Lookup
import EntityService.Proofs.NearestIntegers

/-!
# The order of integers

Cells that stand for integers are compared as the doubles nearest to them.

## Main definitions

* `StandsFor` — a value is an integer of 64 bits, or its text
* `AreMistaken` — two different integers have the same nearest double

## Main results

* `readDouble?_toString` — the text of an integer is read as the double nearest to it
* `compareCells?_eq_ite` — integers are compared exactly, unless they are mistaken for each other
* `pairwise_sortRows` — rows are put in the order of the integers in a column
* `integers_compare_exactly_unless_mistaken` — filters, orders and look-ups with integers
* `integers_of_54_bits_are_mistaken` — there are integers that are mistaken for each other

## Design notes

A number and its text have the same nearest double, so that it does not matter in which of the two
forms an integer is given.
-/

namespace EntityService

open EntityService.Json EntityService.Model EntityService.Number EntityService.Query
open EntityService.Store

/-! ### Integers as texts -/

namespace Number

theorem isDigit_toLower {c : Char} (h : isDigit c) : isDigit c.toLower := by
  have hascii : ∀ n < 0x80, isDigit (Char.ofNat n) → isDigit (Char.ofNat n).toLower := by
    decide +kernel
  have hbound : c.toNat < 0x80 := by
    simp only [isDigit, Bool.and_eq_true, decide_eq_true_eq, Char.le_def,
      UInt32.le_iff_toNat_le] at h
    change 48 ≤ c.toNat ∧ c.toNat ≤ 57 at h
    omega
  rw [← Char.ofNat_toNat c] at h ⊢
  exact hascii _ hbound h

/-- Digits are none of the words for what is no decimal. -/
theorem lowerWord_ne_of_isDigits {cs : List Char} (h : IsDigits cs) {word : String}
    (hword : word.toList.head?.any isDigit = false) : lowerWord cs ≠ word := by
  rintro rfl
  obtain ⟨c, rest, rfl⟩ := List.exists_cons_of_ne_nil h.1
  have hc : isDigit c.toLower := isDigit_toLower (List.all_eq_true.mp h.2 c List.mem_cons_self)
  have hhead : (lowerWord (c :: rest)).toList.head? = some c.toLower := by simp [lowerWord]
  rw [hhead, Option.any_some, hc] at hword
  cases hword

/-- An integer of 64 bits has few digits, so it is rounded as it is. -/
theorem ofDecimal_of_le {n : Nat} (h : n ≤ maxNatural64) (negative : Bool) :
    Double.ofDecimal negative n 0 = Double.ofRatio negative n 1 := by
  have hlength : (Nat.toDigits 10 n).length ≤ 20 :=
    (Nat.length_toDigits_le_iff (by decide) (by decide)).mpr (lt_of_le_of_lt h (by decide))
  unfold Double.ofDecimal
  dsimp only
  rcases Nat.eq_zero_or_pos n with rfl | hpos
  · rfl
  · rw [if_neg hpos.ne', if_neg (by omega), if_neg (by omega)]
    exact congrArg (Double.ofRatio negative · 1) (Nat.mul_one n)

/-- The digits of a number are read as the double nearest to it. -/
theorem readDecimal?_toDigits {n : Nat} (h : n ≤ maxNatural64) (negative : Bool) :
    readDecimal? negative (Nat.toDigits 10 n) = some (Double.ofRatio negative n 1) := by
  have hdigits := isDigits_toDigits n
  have hspan : (Nat.toDigits 10 n).span isDigit = (Nat.toDigits 10 n, []) := by
    simpa using @span_isDigit _ [] hdigits.2 nofun
  have hvalue : digitsValue (Nat.toDigits 10 n) = n := Nat.ofDigitChars_ten_toDigits
  unfold readDecimal?
  simp only [hspan]
  rw [if_neg (fun h => hdigits.1 h.1), List.append_nil, hvalue]
  exact congrArg some (ofDecimal_of_le h negative)

theorem cutSign_toString (n : Int) :
    cutSign (toString n).toList = (decide (n < 0), Nat.toDigits 10 n.natAbs) := by
  cases n with
  | ofNat k =>
      rw [toList_toString_ofNat, cutSign_toDigits]
      rfl
  | negSucc k =>
      rw [toList_toString_negSucc, decide_eq_true (Int.negSucc_lt_zero k)]
      rfl

/-- The text of an integer is read as the double nearest to it. -/
theorem readDouble?_toString {n : Int} (h : n.natAbs ≤ maxNatural64) :
    readDouble? (toString n) = some (Double.ofInt n) := by
  have hdigits := isDigits_toDigits n.natAbs
  unfold readDouble?
  rw [cutSign_toString]
  dsimp only
  rw [if_neg, if_neg, readDecimal?_toDigits h]
  · rfl
  · exact lowerWord_ne_of_isDigits hdigits (by decide)
  · rw [not_or]
    exact ⟨lowerWord_ne_of_isDigits hdigits (by decide),
      lowerWord_ne_of_isDigits hdigits (by decide)⟩

end Number

/-! ### Integers as cells -/

namespace Store

/-- A value stands for an integer of 64 bits, with or without a sign: it is the number, or its
decimal text. -/
structure StandsFor (v : Value) (n : Int) : Prop where
  form : v = .ofInt n ∨ v = .string (toString n)
  low : Double.minInt64 ≤ n
  high : n ≤ maxNatural64

/-- Two integers are mistaken for each other: they differ, but the double nearest to them is the
same. -/
def AreMistaken (a b : Int) : Prop := a ≠ b ∧ Double.ofInt a = Double.ofInt b

instance (a b : Int) : Decidable (AreMistaken a b) := inferInstanceAs (Decidable (_ ∧ _))

theorem AreMistaken.symm {a b : Int} (h : AreMistaken a b) : AreMistaken b a :=
  ⟨h.1.symm, h.2.symm⟩

/-- An integer of at most 53 bits is mistaken for no other one. -/
theorem not_areMistaken {a b : Int} (ha : a.natAbs < 2 ^ 53) : ¬AreMistaken a b :=
  fun h => h.1 (Double.eq_of_ofInt_eq ha h.2)

section Cells

variable {v w : Value} {a b : Int}

namespace StandsFor

theorem isNull (h : StandsFor v a) : v.isNull = false := by
  rcases h.form with rfl | rfl <;> rfl

theorem isFinite (h : StandsFor v a) : v.IsFinite := by
  rcases h.form with rfl | rfl <;> exact trivial

theorem natAbs_le (h : StandsFor v a) : a.natAbs ≤ maxNatural64 := by
  have hlow := h.low
  have hhigh := h.high
  have hmin : -(maxNatural64 : Int) ≤ Double.minInt64 := by decide
  omega

theorem numberOf?_eq (h : StandsFor v a) : numberOf? v = some (Double.ofInt a) := by
  rcases h.form with rfl | rfl
  · rfl
  · rw [numberOf?, Text.trim_of_not_blank (not_blank_toString a)]
    exact readDouble?_toString h.natAbs_le

end StandsFor

/-- Integers are compared by the places of the doubles nearest to them. -/
theorem compareCells?_of_standsFor (hv : StandsFor v a) (hw : StandsFor w b) :
    compareCells? v w = some (compare (Double.ofInt a).place (Double.ofInt b).place) := by
  unfold compareCells?
  rw [hv.isNull, hw.isNull, hv.numberOf?_eq, hw.numberOf?_eq]
  dsimp only
  rw [Double.order?, Double.isNaN_ofInt, Double.isNaN_ofInt]
  rfl

/-- Integers are compared exactly, unless they are mistaken for each other, and then they are the
same. -/
theorem compareCells?_eq_ite (hv : StandsFor v a) (hw : StandsFor w b) :
    compareCells? v w = some (if AreMistaken a b then .eq else compare a b) := by
  rw [compareCells?_of_standsFor hv hw, Option.some.injEq]
  rcases Int.lt_trichotomy a b with hlt | rfl | hgt
  · rcases (Double.place_ofInt_mono hlt.le).lt_or_eq with hplace | hplace
    · have hnot : ¬AreMistaken a b := fun h => hplace.ne (congrArg Double.place h.2)
      rw [if_neg hnot, compare_lt_iff_lt.mpr hlt, compare_lt_iff_lt.mpr hplace]
    · have hmistaken : AreMistaken a b := ⟨hlt.ne, Double.ofInt_eq_of_place_eq hplace⟩
      rw [if_pos hmistaken, compare_eq_iff_eq.mpr hplace]
  · rw [if_neg fun h => h.1 rfl, compare_eq_iff_eq.mpr rfl, compare_eq_iff_eq.mpr rfl]
  · rcases (Double.place_ofInt_mono hgt.le).lt_or_eq with hplace | hplace
    · have hnot : ¬AreMistaken a b := fun h => hplace.ne (congrArg Double.place h.2).symm
      rw [if_neg hnot, compare_gt_iff_gt.mpr hgt, compare_gt_iff_gt.mpr hplace]
    · have hmistaken : AreMistaken a b := ⟨hgt.ne', (Double.ofInt_eq_of_place_eq hplace).symm⟩
      rw [if_pos hmistaken, compare_eq_iff_eq.mpr hplace.symm]

/-- Cells that stand for integers are the same when the integers are, or when they are mistaken for
each other. -/
theorem sameCell_iff_of_standsFor (hv : StandsFor v a) (hw : StandsFor w b) :
    sameCell v w ↔ a = b ∨ AreMistaken a b := by
  rw [sameCell, compareCells?_eq_ite hv hw, beq_iff_eq, Option.some.injEq]
  split_ifs with hmistaken
  · exact iff_of_true rfl (.inr hmistaken)
  · rw [compare_eq_iff_eq, or_iff_left hmistaken]

theorem sortOrder_of_standsFor (hv : StandsFor v a) (hw : StandsFor w b) :
    sortOrder v w = compare (Double.ofInt a).place (Double.ofInt b).place := by
  rw [sortOrder, hv.isNull, hw.isNull, compareCells?_of_standsFor hv hw]
  rfl

/-- Integers whose doubles are in order are in order themselves, or they are mistaken for each
other. -/
theorem le_of_place_le (h : (Double.ofInt a).place ≤ (Double.ofInt b).place) :
    AreMistaken a b ∨ a ≤ b := by
  by_cases hle : a ≤ b
  · exact .inr hle
  · have hlt := Int.not_le.mp hle
    have hplace := le_antisymm h (Double.place_ofInt_mono hlt.le)
    exact .inl ⟨hlt.ne', Double.ofInt_eq_of_place_eq hplace⟩

end Cells

/-! ### Rows with integers -/

/-- The place of an integer in an order. -/
def orderedPlace (descending : Bool) (n : Int) : Int :=
  if descending then -(Double.ofInt n).place else (Double.ofInt n).place

/-- Rows are in order when the integers in a column are. -/
theorem rowOrder_of_standsFor {column : String} {descending : Bool} {x y : Record} {a b : Int}
    (hx : StandsFor (Record.cell x column) a) (hy : StandsFor (Record.cell y column) b) :
    (rowOrder [(column, descending)] x y != .gt) =
      decide (orderedPlace descending a ≤ orderedPlace descending b) := by
  have hthen : ∀ order : Ordering, order.then .eq = order := by decide
  rw [rowOrder, rowOrder, sortOrder_of_standsFor hx hy, hthen, orderedPlace, orderedPlace,
    Bool.eq_iff_iff, bne_iff_ne, decide_eq_true_eq]
  cases descending with
  | false => simp [compare_gt_iff_gt]
  | true => simp [Ordering.swap_eq_gt, compare_lt_iff_lt]

/-- Rows are put in the order of the integers in a column, as far as these are not mistaken for each
other. -/
theorem pairwise_sortRows {column : String} (descending : Bool) {rows : List Record}
    {value : Record → Int}
    (hvalue : ∀ row ∈ rows, StandsFor (Record.cell row column) (value row)) :
    (sortRows [(column, descending)] rows).Pairwise fun x y =>
      AreMistaken (value x) (value y) ∨
        if descending then value y ≤ value x else value x ≤ value y := by
  let place (row : Record) : Int := orderedPlace descending (value row)
  have hmap : (sortRows [(column, descending)] rows).map place =
      (rows.map place).mergeSort fun a b => decide (a ≤ b) :=
    List.map_mergeSort fun x hx y hy => rowOrder_of_standsFor (hvalue x hx) (hvalue y hy)
  have hsorted : ((sortRows [(column, descending)] rows).map place).Pairwise (· ≤ ·) := by
    rw [hmap]
    refine (List.pairwise_mergeSort ?_ ?_ _).imp of_decide_eq_true
    · simpa using fun _ _ _ => Int.le_trans
    · simpa using Int.le_total
  refine (List.pairwise_map.mp hsorted).imp fun {x y} hle => ?_
  cases descending with
  | false => exact le_of_place_le hle
  | true =>
      exact (le_of_place_le (Int.neg_le_neg_iff.mp hle)).imp_left AreMistaken.symm

end Store

/-- Integers of 64 bits in the cells of a table are compared exactly with an integer that is asked
for, unless they are mistaken for it: a filter keeps the rows that have it, rows are put in order by
them, and a look-up by key gives a row that has it as its key.  Integers that are mistaken for each
other count as the same; an integer of at most 53 bits is mistaken for no other one. -/
theorem integers_compare_exactly_unless_mistaken {v : Value} {n : Int} (hv : StandsFor v n)
    {e : Entity} {column : String} {store : Memory} {value : Record → Int}
    (hvalue : ∀ row ∈ store.rows e.id, StandsFor (Record.cell row column) (value row)) :
    (∀ row ∈ store.rows e.id,
      compareCells? (Record.cell row column) v =
          some (if AreMistaken (value row) n then .eq else compare (value row) n) ∧
        (passes row (.compare column .eq v) ↔ value row = n ∨ AreMistaken (value row) n)) ∧
      (∀ (p : Plan) (descending : Bool), p.entity = e → p.orders = [(column, descending)] →
        (store.selected p).Pairwise fun x y =>
          AreMistaken (value x) (value y) ∨
            if descending then value y ≤ value x else value x ≤ value y) ∧
      (∀ (m : Model) (answer : Value), e.primaryKey = column →
        (Session.find v [] ⟨Repository.of m e, store⟩).1 = .ok answer →
          ∃ row ∈ store.rows e.id, answer = .object row ∧
            (value row = n ∨ AreMistaken (value row) n)) ∧
      ∀ a b : Int, a.natAbs < 2 ^ 53 → ¬AreMistaken a b := by
  have hsame : ∀ row ∈ store.rows e.id,
      sameCell (Record.cell row column) v ↔ value row = n ∨ AreMistaken (value row) n :=
    fun row hrow => sameCell_iff_of_standsFor (hvalue row hrow) hv
  refine ⟨?_, ?_, ?_, fun a b => not_areMistaken⟩
  · intro row hrow
    refine ⟨compareCells?_eq_ite (hvalue row hrow) hv, ?_⟩
    rw [← hsame row hrow, passes, compares, hv.isNull, if_neg Bool.false_ne_true, sameCell]
  · rintro p descending rfl horders
    rw [Memory.selected, selection, horders]
    exact pairwise_sortRows descending fun row hrow => hvalue row (List.mem_filter.mp hrow).1
  · rintro m answer rfl hanswer
    obtain ⟨looked, -, -, hfind⟩ := find_apply (m := m) hv.isNull hv.isFinite
      fun row hrow => (hvalue row hrow).isFinite
    rw [hfind, found] at hanswer
    split at hanswer
    · next row hrow =>
        have hmem := List.mem_of_find?_eq_some hrow
        have hshows : e.shows v row := List.find?_some hrow
        have hkey : Memory.hasKey e v row := (Bool.and_eq_true_iff.mp hshows).1
        exact ⟨row, hmem, (Except.ok.inj hanswer).symm, (hsame row hmem).mp hkey⟩
    · cases hanswer

/-! ### Accounts -/

namespace Accounts

/-- Accounts, whose numbers are integers of 64 bits. -/
def accounts : Entity where
  id := "accounts"
  schema := "public"
  table := "accounts"
  pathSegment := "accounts"
  primaryKey := "id"
  keyType := .bigInt
  createdAt := "created_at"
  updatedAt := "updated_at"
  columns := []
  filterable := .of [] "id" "created_at" "updated_at"
  activeFlag := none
  defaultSort := ⟨"id", "asc"⟩
  relations := []
  aggregates := []
  operations := ["read", "update", "delete"]
  sensitive := []
  validation := []
  pageSize := 25

/-- A store of accounts with the given numbers. -/
def store (numbers : List Int) : Memory where
  model := ⟨[accounts]⟩
  tables := [("accounts", ⟨numbers.map fun n => [("id", .ofInt n)], 0⟩)]
  clock := "2000-01-01T00:00:00+00:00"
  identifiers := fun n => ⟨(Nat.toDigits 16 n).leftpad 32 '0'⟩

/-- The number of an account. -/
def number (row : Record) : Int :=
  match Record.cell row "id" with
  | .number (.integer n) => n
  | _ => 0

/-- Look for the account with a number. -/
def find (n : Int) (numbers : List Int) : Except Error Value :=
  (Session.find (.ofInt n) [] ⟨Repository.of ⟨[accounts]⟩ accounts, store numbers⟩).1

end Accounts

open Accounts in
/-- Accounts with small numbers are found by their own numbers, and put in order. -/
theorem integers_compare_exactly_unless_mistaken_accounts :
    let numbers := [7, -5, 12]
    (∀ row ∈ (store numbers).rows "accounts", StandsFor (Record.cell row "id") (number row)) ∧
      (∃ row, find 12 numbers = .ok (.object row) ∧ number row = 12) ∧
      ((store numbers).selected ⟨accounts, [.orderBy "id" "desc"]⟩).Pairwise fun x y =>
        AreMistaken (number x) (number y) ∨ number y ≤ number x := by
  intro numbers
  have hnumber : ∀ row ∈ (store numbers).rows "accounts",
      StandsFor (Record.cell row "id") (number row) := by
    have hrows : (store numbers).rows "accounts" = numbers.map fun n => [("id", .ofInt n)] := rfl
    rw [hrows, List.forall_mem_map]
    intro n hn
    have hbounds : ∀ n ∈ numbers, Double.minInt64 ≤ n ∧ n ≤ maxNatural64 := by decide
    exact ⟨.inl rfl, (hbounds n hn).1, (hbounds n hn).2⟩
  have htwelve : StandsFor (.ofInt 12) 12 := ⟨.inl rfl, by decide, by decide⟩
  obtain ⟨-, hsorted, hfind, hfew⟩ :=
    integers_compare_exactly_unless_mistaken htwelve (e := accounts) hnumber
  refine ⟨hnumber, ?_, hsorted ⟨accounts, _⟩ true rfl rfl⟩
  have hsome : (find 12 numbers).toOption.isSome := by decide +kernel
  cases hfound : find 12 numbers with
  | error cause =>
      rw [hfound] at hsome
      cases hsome
  | ok found =>
      obtain ⟨row, -, rfl, hrow⟩ := hfind _ found rfl hfound
      exact ⟨row, rfl, hrow.resolve_right fun h => hfew 12 _ (by decide) h.symm⟩

open Accounts in
/-- The first two integers of 54 bits are mistaken for each other: a comparison finds them the same,
also as texts, a filter keeps a row that has the other one, rows in descending order stand in
ascending order, and another account is found than the one that is looked for. -/
theorem integers_of_54_bits_are_mistaken :
    let n : Int := 2 ^ 53
    compareCells? (.ofInt (n + 1)) (.ofInt n) = some .eq ∧
      compareCells? (.string (toString (n + 1))) (.ofInt n) = some .eq ∧
      passes [("id", .ofInt n)] (.compare "id" .eq (.ofInt (n + 1))) ∧
      sortRows [("id", true)] [[("id", .ofInt n)], [("id", .ofInt (n + 1))]] =
        [[("id", .ofInt n)], [("id", .ofInt (n + 1))]] ∧
      (find (n + 1) [n]).toOption.map Value.plainText =
        some (Value.object [("id", .ofInt n)]).plainText := by
  intro n
  refine ⟨by decide +kernel, by decide +kernel, by decide +kernel, ?_, by decide +kernel⟩
  -- the two rows are the same for the order
  refine @sortRows_eq_self "id" (.ofInt n) _ trivial ?_ ?_ true
  · simp only [List.forall_mem_cons]
    exact ⟨trivial, trivial, nofun⟩
  · decide +kernel

end EntityService
