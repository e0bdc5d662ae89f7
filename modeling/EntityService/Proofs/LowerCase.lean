import EntityService.Text.Case

/-!
# Texts in lower case

A text is put in lower case character by character, but for its capital sigmas, whose lowercase form
depends on what is around them.

## Main results

* `capitalSigma_not_mem_lowercaseAfter` — a text in lower case has no capital sigma
* `lowercase_append` — what stands after a text in lower case is put in lower case on its own
-/

namespace EntityService.Text

/-! ### Texts with a capital sigma -/

/-- No shift moves a code point to the capital sigma. -/
theorem covers_capitalSigma :
    ∀ s ∈ lowerShifts, s.covers (Int.toNat (0x3A3 - s.distance)) = false := by
  decide +kernel

theorem eq_of_ofNat_eq_capitalSigma {n : Nat} (h : Char.ofNat n = capitalSigma) : n = 0x3A3 := by
  have hcode := congrArg Char.toNat h
  by_cases hvalid : n.isValidChar
  · rw [Char.ofNat, dif_pos hvalid] at hcode
    exact hcode
  · rw [Char.ofNat, dif_neg hvalid] at hcode
    cases hcode

theorem shifted_lowerShifts_ne {code : Nat} (h : code ≠ 0x3A3) :
    shifted lowerShifts code ≠ 0x3A3 := by
  rw [shifted]
  split
  · next s hs =>
      intro happly
      have hcode : Int.toNat (0x3A3 - s.distance) = code := by
        rw [CaseShift.apply, Int.ofNat_eq_natCast] at happly
        omega
      have hcovers := covers_capitalSigma s (List.mem_of_find?_eq_some hs)
      rw [hcode, List.find?_some hs] at hcovers
      cases hcovers
  · exact h

theorem capitalSigma_not_mem_lowerChars {c : Char} (h : c ≠ capitalSigma) :
    capitalSigma ∉ lowerChars c := by
  have hcode : c.toNat ≠ 0x3A3 := fun hcode => h (Char.toNat_inj.mp hcode)
  have hexpansions : ∀ entry ∈ lowerExpansions, capitalSigma ∉ entry.2.map Char.ofNat := by decide
  unfold lowerChars
  split
  · split
    · rw [List.mem_singleton]
      intro heq
      have := eq_of_ofNat_eq_capitalSigma heq.symm
      omega
    · simpa using h.symm
  · split
    · next codes hlookup =>
        obtain ⟨before, after, hentries, -⟩ := List.lookup_eq_some_iff.mp hlookup
        refine hexpansions (c.toNat, codes) ?_
        rw [hentries]
        exact List.mem_append_right _ List.mem_cons_self
    · rw [List.mem_singleton]
      exact fun heq => shifted_lowerShifts_ne hcode (eq_of_ofNat_eq_capitalSigma heq.symm)

/-- A text in lower case has no capital sigma. -/
theorem capitalSigma_not_mem_lowercaseAfter (before cs : List Char) :
    capitalSigma ∉ lowercaseAfter before cs := by
  induction cs generalizing before with
  | nil => exact List.not_mem_nil
  | cons c cs ih =>
      rw [lowercaseAfter, List.mem_append, not_or]
      refine ⟨?_, ih _⟩
      split
      · split <;> decide
      · next hc => exact capitalSigma_not_mem_lowerChars (by simpa using hc)

/-- Where a capital sigma has been, there is one of its two lowercase forms. -/
theorem exists_sigma_mem_lowercaseAfter {cs : List Char} (h : capitalSigma ∈ cs)
    (before : List Char) : ∃ c ∈ lowercaseAfter before cs, c = 'ς' ∨ c = 'σ' := by
  induction cs generalizing before with
  | nil => cases h
  | cons d cs ih =>
      rw [lowercaseAfter]
      rcases List.mem_cons.mp h with rfl | hrest
      · refine ⟨_, List.mem_append_left _ List.mem_cons_self, ?_⟩
        split <;> simp
      · obtain ⟨c, hc, hsigma⟩ := ih hrest (d :: before)
        exact ⟨c, List.mem_append_right _ hc, hsigma⟩

/-! ### Texts without a capital sigma -/

/-- Without a capital sigma the characters are put in lower case one by one. -/
theorem lowercaseAfter_of_not_mem {cs : List Char} (h : capitalSigma ∉ cs) (before : List Char) :
    lowercaseAfter before cs = cs.flatMap lowerChars := by
  induction cs generalizing before with
  | nil => rfl
  | cons c cs ih =>
      rw [List.mem_cons, not_or] at h
      have hc : (c == capitalSigma) = false := beq_false_of_ne (Ne.symm h.1)
      rw [lowercaseAfter, ih h.2, List.flatMap_cons, hc]
      rfl

/-- What stands after a text in lower case is put in lower case on its own. -/
theorem lowercase_append {s t : String} (hs : lowercase s = s) (ht : capitalSigma ∉ t.toList) :
    lowercase (s ++ t) = s ++ lowercase t := by
  have hchars : lowercaseAfter [] s.toList = s.toList := by
    have hlist := congrArg String.toList hs
    rwa [lowercase, String.toList_ofList] at hlist
  have hsigma : capitalSigma ∉ s.toList := hchars ▸ capitalSigma_not_mem_lowercaseAfter _ _
  have hboth : capitalSigma ∉ s.toList ++ t.toList := fun hmem =>
    (List.mem_append.mp hmem).elim hsigma ht
  rw [lowercase, lowercase, String.toList_append, lowercaseAfter_of_not_mem hboth,
    List.flatMap_append, ← lowercaseAfter_of_not_mem hsigma [], hchars,
    ← lowercaseAfter_of_not_mem ht [], String.ofList_append, String.ofList_toList]

end EntityService.Text
