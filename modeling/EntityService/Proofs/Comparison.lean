import EntityService.Proofs.WrittenNumber
import EntityService.Store.Selection

/-!
# Cells that are the same

Equality of cells goes by one mark per value, so it is symmetric and transitive, although it
compares some cells as numbers and others as texts.

## Main definitions

* `mark?` — what a cell is compared by

## Main results

* `isSome_numberOf?` — a value stands for a number exactly when its text spells one
* `sameCell_iff` — cells are the same when they have the same mark
* `sameCell_self` — a cell is the same as itself unless it is null or stands for a NaN
* `sameCell_comm`, `sameCell_trans` — equality of cells is a partial equivalence
* `sortRows_eq_self` — rows with the same key stay as they stand

## Design notes

A number and a text that does not spell a number are compared by their texts.  They could only be
the same if the text of the number did not spell a number, which is why it matters that written
numbers are read.  An infinite number is written as `null`; data hold none.
-/

namespace EntityService.Store

open EntityService.Json EntityService.Number

/-- The text of a number is read as a number. -/
theorem isSome_readDouble?_text {n : Json.Number} (h : (Value.number n).IsFinite) :
    (readDouble? (Text.trim n.text)).isSome := by
  cases n with
  | integer n =>
      cases n with
      | ofNat n =>
          exact isSome_readDouble?_of_isDecimal (isDecimal_toDigits n)
            (.inl (toList_toString_ofNat n))
      | negSucc n =>
          exact isSome_readDouble?_of_isDecimal (isDecimal_toDigits (n + 1))
            (.inr (toList_toString_negSucc n))
  | real x =>
      obtain ⟨cs, hcs, htext⟩ := Layout.isDecimal_text h
      rw [Json.Number.text, if_pos (show x.isFinite = true from h)]
      exact isSome_readDouble?_of_isDecimal hcs htext

/-- A value whose text spells a number stands for one. -/
theorem isSome_numberOf?_of_text {v : Value} (h : (readDouble? (Text.trim v.plainText)).isSome) :
    (numberOf? v).isSome := by
  cases v with
  | null => exact absurd h (by decide +kernel)
  | bool b => cases b <;> exact absurd h (by decide +kernel)
  | number n => rfl
  | string s => exact h
  | array items =>
      have hfirst : ∃ rest, (Value.array items).plainText.toList = '[' :: rest := by
        rw [Value.plainText, Value.text, String.toList_append, String.toList_append]
        exacts [⟨_, rfl⟩, fun _ h => Value.noConfusion h]
      obtain ⟨rest, hrest⟩ := hfirst
      rw [readDouble?_of_bracket (.inl rfl) hrest] at h
      cases h
  | object members =>
      have hfirst : ∃ rest, (Value.object members).plainText.toList = '\x7b' :: rest := by
        rw [Value.plainText, Value.text, String.toList_append, String.toList_append]
        exacts [⟨_, rfl⟩, fun _ h => Value.noConfusion h]
      obtain ⟨rest, hrest⟩ := hfirst
      rw [readDouble?_of_bracket (.inr rfl) hrest] at h
      cases h

/-- A value stands for a number exactly when its text spells one. -/
theorem isSome_numberOf? {v : Value} (h : v.IsFinite) :
    (numberOf? v).isSome = (readDouble? (Text.trim v.plainText)).isSome := by
  refine Bool.eq_iff_iff.mpr ⟨?_, isSome_numberOf?_of_text⟩
  cases v with
  | number n => exact fun _ => isSome_readDouble?_text h
  | string s => exact id
  | null | bool | array | object => exact nofun

theorem isSome_numberOf?_congr {a b : Value} (ha : a.IsFinite) (hb : b.IsFinite)
    (htext : a.plainText = b.plainText) : (numberOf? a).isSome = (numberOf? b).isSome := by
  rw [isSome_numberOf? ha, isSome_numberOf? hb, htext]

/-- A text that spells a NaN holds its letter. -/
theorem exists_mem_of_isNaN {s : String} {x : Double} (h : numberOf? (.string s) = some x)
    (hnan : x.isNaN) : ∃ c ∈ s.toList, c.toLower = 'n' := by
  have hread : readDouble? (Text.trim s) = some x := h
  have hn : 'n' ∈ ((cutSign (Text.trim s).toList).2).map Char.toLower := by
    have hword : (lowerWord (cutSign (Text.trim s).toList).2).toList = "nan".toList :=
      congrArg String.toList (lowerWord_of_isNaN hread hnan)
    rw [lowerWord, String.toList_ofList] at hword
    rw [hword]
    decide
  obtain ⟨c, hc, hlower⟩ := List.mem_map.mp hn
  exact ⟨c, Text.mem_of_mem_trim (mem_of_mem_cutSign hc), hlower⟩

/-! ### Equality of cells -/

/-- A value that is not null and does not stand for a NaN is the same as itself. -/
theorem sameCell_self {v : Value} (hnull : v.isNull = false)
    (hnumber : ∀ x ∈ numberOf? v, x.isNaN = false) : sameCell v v := by
  unfold sameCell compareCells?
  rw [hnull]
  cases hv : numberOf? v with
  | none => simp
  | some x => simp [Double.order?, hnumber x hv]

/-- What a cell is compared by: the place of the number it stands for, or its text.  Null and a NaN
are compared with nothing. -/
def mark? (v : Value) : Option (Int ⊕ String) :=
  if v.isNull then none
  else
    match numberOf? v with
    | some x => if x.isNaN then none else some (.inl x.place)
    | none => some (.inr v.plainText)

/-- Cells are the same when they have the same mark. -/
theorem sameCell_iff {a b : Value} (ha : a.IsFinite) (hb : b.IsFinite) :
    sameCell a b ↔ ∃ mark, mark? a = some mark ∧ mark? b = some mark := by
  have hsome := isSome_numberOf?_congr ha hb
  unfold sameCell compareCells? mark?
  cases a.isNull with
  | true => simp
  | false =>
      cases b.isNull with
      | true => simp
      | false =>
          cases hx : numberOf? a with
          | some x =>
              cases hy : numberOf? b with
              | some y =>
                  unfold Double.order?
                  cases hnan : x.isNaN with
                  | true => simp [hnan]
                  | false =>
                      cases hnan' : y.isNaN with
                      | true => simp [hnan']
                      | false => simp [hnan, hnan', eq_comm (a := x.place)]
              | none =>
                  -- a text that spells a number is not the text of something else
                  have htext : a.plainText ≠ b.plainText := fun h => by simpa [hx, hy] using hsome h
                  cases hnan : x.isNaN <;> simp [hnan, htext]
          | none =>
              cases hy : numberOf? b with
              | some y =>
                  have htext : a.plainText ≠ b.plainText := fun h => by simpa [hx, hy] using hsome h
                  cases hnan : y.isNaN <;> simp [hnan, htext]
              | none =>
                  have htext : (compare a.plainText b.plainText == .eq) = true ↔
                      b.plainText = a.plainText := by
                    rw [beq_iff_eq, Std.compare_eq_iff_eq, eq_comm]
                  simp [htext]

theorem sameCell_comm {a b : Value} (ha : a.IsFinite) (hb : b.IsFinite) :
    sameCell a b ↔ sameCell b a := by
  rw [sameCell_iff ha hb, sameCell_iff hb ha]
  simp only [and_comm]

theorem sameCell_trans {a b c : Value} (ha : a.IsFinite) (hb : b.IsFinite) (hc : c.IsFinite)
    (hab : sameCell a b) (hbc : sameCell b c) : sameCell a c := by
  obtain ⟨mark, hmark, hmiddle⟩ := (sameCell_iff ha hb).mp hab
  obtain ⟨other, hother, hend⟩ := (sameCell_iff hb hc).mp hbc
  obtain rfl : mark = other := Option.some.inj (hmiddle.symm.trans hother)
  exact (sameCell_iff ha hc).mpr ⟨mark, hmark, hend⟩

/-! ### Rows with the same key -/

theorem sortOrder_of_sameCell {a b : Value} (h : sameCell a b) : sortOrder a b = .eq := by
  unfold sameCell compareCells? at h
  unfold sortOrder compareCells?
  cases ha : a.isNull <;> cases hb : b.isNull <;> simp_all

/-- Rows that have the same value in a column stay as they stand when they are put in order by
it. -/
theorem sortRows_eq_self {column : String} {key : Value} {rows : List Record} (hkey : key.IsFinite)
    (hfinite : ∀ row ∈ rows, (Record.cell row column).IsFinite)
    (hsame : ∀ row ∈ rows, sameCell (Record.cell row column) key) (descending : Bool) :
    sortRows [(column, descending)] rows = rows := by
  refine List.mergeSort_of_pairwise (List.pairwise_of_forall_mem_list ?_)
  intro a ha b hb
  have hab : sameCell (Record.cell a column) (Record.cell b column) :=
    sameCell_trans (hfinite a ha) hkey (hfinite b hb) (hsame a ha)
      ((sameCell_comm (hfinite b hb) hkey).mp (hsame b hb))
  unfold rowOrder rowOrder
  rw [sortOrder_of_sameCell hab]
  cases descending <;> rfl

end EntityService.Store
