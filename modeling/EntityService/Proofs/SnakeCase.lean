import EntityService.Proofs.CamelCase

/-!
# Outside spellings

The outside spelling of a name in camel case can be read back, so that no two such names have one
spelling, and the counts of different relations are shown under different keys.

## Main definitions

* `IsCamelName` — a text of ASCII letters and digits that begins with a lowercase letter

## Main results

* `camelCase_snakeCase` — a name in camel case is the inside spelling of its outside spelling
* `eq_of_countKey_eq` — names in camel case with one key for their counts are one name
* `not_isCamelName_countKey` — the key of a count is no name in camel case

## Design notes

Reading back goes along the name.  Between two characters a name in camel case has been started, no
delimiter is open, and what has been written does not end in an underscore, so one state of each of
the two machines is enough for the induction.
-/

namespace EntityService.Naming

open EntityService.Text

/-- A text of ASCII letters and digits that begins with a lowercase letter. -/
def IsCamelName (s : String) : Prop :=
  s.toList.head?.any Char.isLower ∧ s.toList.all Char.isAlphanum

instance (s : String) : Decidable (IsCamelName s) := instDecidableAnd

theorem IsCamelName.exists_cons {s : String} (h : IsCamelName s) :
    ∃ c cs, s.toList = c :: cs ∧ c.isLower ∧ ∀ d ∈ cs, d.isAlphanum := by
  obtain ⟨hfirst, hall⟩ := h
  cases hs : s.toList with
  | nil =>
      rw [hs] at hfirst
      cases hfirst
  | cons c cs =>
      rw [hs] at hfirst hall
      exact ⟨c, cs, rfl, hfirst, (List.forall_mem_cons.mp (List.all_eq_true.mp hall)).2⟩

/-! ### Letters and digits -/

theorem toNat_lt_of_isAlphanum {c : Char} (h : c.isAlphanum) : c.toNat < 128 := by
  change (decide (65 ≤ c.val ∧ c.val ≤ 90) || decide (97 ≤ c.val) && decide (c.val ≤ 122) ||
    decide (48 ≤ c.val) && decide (c.val ≤ 57)) = true at h
  simp only [Bool.or_eq_true, Bool.and_eq_true, decide_eq_true_eq, UInt32.le_iff_toNat_le] at h
  change (65 ≤ c.toNat ∧ c.toNat ≤ 90 ∨ 97 ≤ c.toNat ∧ c.toNat ≤ 122) ∨
    48 ≤ c.toNat ∧ c.toNat ≤ 57 at h
  omega

theorem isAlphanum_of_isLower {c : Char} (h : c.isLower) : c.isAlphanum := by
  change (c.isUpper || c.isLower || c.isDigit) = true
  rw [h, Bool.or_true, Bool.true_or]

/-- A letter or digit does not separate words, and a capital among them is read back from its
lowercase form, which does not separate words either. -/
theorem of_isAlphanum {c : Char} (h : c.isAlphanum) :
    isDelimiter c = false ∧
      (isUppercase c → ∃ d, lowerChars c = [d] ∧ isDelimiter d = false ∧ upperChars d = [c]) := by
  have hall : ∀ c : Char, c.toNat < 128 → c.isAlphanum → isDelimiter c = false ∧
      (isUppercase c → (lowerChars c).any isDelimiter = false ∧
        (lowerChars c).flatMap upperChars = [c]) := forall_ascii (by decide +kernel)
  have hascii := toNat_lt_of_isAlphanum h
  obtain ⟨hdelimiter, hcapital⟩ := hall c hascii h
  refine ⟨hdelimiter, fun hupper => ?_⟩
  obtain ⟨d, hd, -⟩ := exists_lowerChars_eq hascii
  obtain ⟨hlower, hback⟩ := hcapital hupper
  rw [hd] at hlower hback
  exact ⟨d, hd, by simpa using hlower, by simpa using hback⟩

/-- A lowercase letter is no capital and its own lowercase form. -/
theorem of_isLower {c : Char} (h : c.isLower) : isUppercase c = false ∧ lowerChars c = [c] := by
  have hall : ∀ c : Char, c.toNat < 128 → c.isLower →
      isUppercase c = false ∧ lowerChars c = [c] := forall_ascii (by decide +kernel)
  exact hall c (toNat_lt_of_isAlphanum (isAlphanum_of_isLower h)) h

/-! ### Reading back -/

/-- What follows the first character of a name is read back. -/
theorem camelFrom_snakeFrom {cs : List Char} (h : ∀ c ∈ cs, c.isAlphanum) :
    camelFrom true false (snakeFrom true cs) = cs := by
  induction cs with
  | nil => rfl
  | cons c cs ih =>
      obtain ⟨hc, hcs⟩ := List.forall_mem_cons.mp h
      obtain ⟨hdelimiter, hcapital⟩ := of_isAlphanum hc
      rw [snakeFrom]
      split
      · next hupper =>
        -- the underscore asks for the capital, of which the lowercase form has been written
        obtain ⟨d, hlower, hplain, hback⟩ := hcapital hupper
        rw [hlower]
        change camelFrom true true (d :: snakeFrom true cs) = c :: cs
        rw [camelFrom, hplain, hback, ih hcs]
        rfl
      · have happart : (c != '_') = true := bne_iff_ne.mpr (by rintro rfl; cases hc)
        rw [happart, camelFrom, hdelimiter, ih hcs]
        rfl

/-- A name in camel case is the inside spelling of its outside spelling. -/
theorem camelCase_snakeCase {s : String} (h : IsCamelName s) : camelCase (snakeCase s) = s := by
  obtain ⟨c, cs, hs, hlower, hcs⟩ := h.exists_cons
  obtain ⟨hnotUpper, hform⟩ := of_isLower hlower
  have hdelimiter : isDelimiter c = false := (of_isAlphanum (isAlphanum_of_isLower hlower)).1
  have happart : (c != '_') = true := bne_iff_ne.mpr (by rintro rfl; cases hlower)
  rw [camelCase, snakeCase, String.toList_ofList, hs, snakeFrom, hnotUpper, happart]
  change String.ofList (camelFrom false false (c :: snakeFrom true cs)) = s
  rw [camelFrom, hdelimiter, hform]
  change String.ofList (c :: camelFrom true false (snakeFrom true cs)) = s
  rw [camelFrom_snakeFrom hcs, ← hs, String.ofList_toList]

/-! ### Keys of counts -/

/-- Names in camel case with one key for their counts are one name. -/
theorem eq_of_countKey_eq {s t : String} (hs : IsCamelName s) (ht : IsCamelName t)
    (h : countKey s = countKey t) : s = t := by
  have hlists := congrArg String.toList h
  rw [countKey, countKey, String.toList_append, String.toList_append,
    List.append_left_inj] at hlists
  rw [← camelCase_snakeCase hs, String.toList_injective hlists, camelCase_snakeCase ht]

/-- The key of a count is no name in camel case, since it has an underscore. -/
theorem not_isCamelName_countKey (s : String) : ¬ IsCamelName (countKey s) := by
  intro h
  obtain ⟨c, cs, hs, hlower, hcs⟩ := h.exists_cons
  have hunderscore : '_' ∈ (countKey s).toList := by
    rw [countKey, String.toList_append]
    exact List.mem_append_right _ (by decide)
  rw [hs, List.mem_cons] at hunderscore
  rcases hunderscore with rfl | hmem
  · cases hlower
  · cases hcs '_' hmem

end EntityService.Naming
