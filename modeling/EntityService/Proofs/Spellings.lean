import EntityService.Proofs.SnakeCase

/-!
# The two spellings

The inside and the outside spelling of a name undo each other, on names in camel case and on names
made of words with underscores between them.  So a request that names a path in the outside spelling
reaches the path itself.

## Main definitions

* `IsSnakeWord` — a word of a name in the outside spelling

## Main results

* `snakeCase_camelCase` — words with underscores between them are the outside spelling of their
  inside spelling
* `camelPath_joined_snakeCase` — a path in the outside spelling is read back, segment by segment
* `spellings_undo_each_other` — both ways, for names, paths and the keys of counts

## Design notes

Of a name in words the first one is kept by both machines, so the induction is on the words after
it, each with its underscore: the inside spelling turns the underscore into a capital, and the
outside spelling turns the capital into the underscore.
-/

namespace EntityService.Naming

open EntityService.Text

/-- A word of a name in the outside spelling: a lowercase letter, followed by lowercase letters and
digits. -/
def IsSnakeWord (w : String) : Prop :=
  w.toList.head?.any Char.isLower ∧ w.toList.all fun c => c.isLower || c.isDigit

instance (w : String) : Decidable (IsSnakeWord w) := instDecidableAnd

theorem IsSnakeWord.exists_cons {w : String} (h : IsSnakeWord w) :
    ∃ c cs, w.toList = c :: cs ∧ c.isLower ∧ ∀ d ∈ cs, d.isLower ∨ d.isDigit := by
  obtain ⟨hfirst, hall⟩ := h
  cases hw : w.toList with
  | nil =>
      rw [hw] at hfirst
      cases hfirst
  | cons c cs =>
      rw [hw] at hfirst hall
      have hrest := (List.forall_mem_cons.mp (List.all_eq_true.mp hall)).2
      exact ⟨c, cs, rfl, hfirst, fun d hd => by simpa using hrest d hd⟩

/-! ### Characters of words -/

/-- A lowercase letter or a digit is kept by both spellings. -/
theorem of_isLower_or_isDigit {c : Char} (h : c.isLower ∨ c.isDigit) :
    isDelimiter c = false ∧ isUppercase c = false ∧ (c != '_') = true := by
  have hall : ∀ c : Char, c.toNat < 128 → c.isLower ∨ c.isDigit →
      isDelimiter c = false ∧ isUppercase c = false ∧ (c != '_') = true :=
    forall_ascii (by decide +kernel)
  have halphanum : c.isAlphanum := by
    change (c.isUpper || c.isLower || c.isDigit) = true
    rcases h with h | h <;> simp [h]
  exact hall c (toNat_lt_of_isAlphanum halphanum) h

/-- The capital of a lowercase letter is one character, from which the letter is read back. -/
theorem exists_upperChars_eq {c : Char} (h : c.isLower) :
    ∃ d, upperChars c = [d] ∧ isUppercase d ∧ lowerChars d = [c] := by
  have hall : ∀ c : Char, c.toNat < 128 → c.isLower → (upperChars c).length = 1 ∧
      (upperChars c).all isUppercase ∧ (upperChars c).flatMap lowerChars = [c] :=
    forall_ascii (by decide +kernel)
  obtain ⟨hlength, hcapital, hback⟩ :=
    hall c (toNat_lt_of_isAlphanum (isAlphanum_of_isLower h)) h
  obtain ⟨d, hd⟩ := List.length_eq_one_iff.mp hlength
  rw [hd] at hcapital hback
  exact ⟨d, hd, by simpa using hcapital, by simpa using hback⟩

section Words

variable {cs : List Char} (h : ∀ c ∈ cs, c.isLower ∨ c.isDigit)

include h

/-- What follows the first letter of a word is kept by the inside spelling. -/
theorem camelFrom_append_of_word (rest : List Char) :
    camelFrom true false (cs ++ rest) = cs ++ camelFrom true false rest := by
  induction cs with
  | nil => rfl
  | cons c cs ih =>
      obtain ⟨hc, hcs⟩ := List.forall_mem_cons.mp h
      rw [List.cons_append, camelFrom, (of_isLower_or_isDigit hc).1, ih hcs]
      rfl

/-- What follows the first letter of a word is kept by the outside spelling. -/
theorem snakeFrom_append_of_word (rest : List Char) :
    snakeFrom true (cs ++ rest) = cs ++ snakeFrom true rest := by
  induction cs with
  | nil => rfl
  | cons c cs ih =>
      obtain ⟨hc, hcs⟩ := List.forall_mem_cons.mp h
      obtain ⟨-, hlower, hapart⟩ := of_isLower_or_isDigit hc
      rw [List.cons_append, snakeFrom, hlower, hapart, ih hcs]
      rfl

end Words

/-! ### Names in words -/

/-- The words after the first one, each with the underscore before it. -/
def laterWords (words : List String) : List Char := words.flatMap fun w => '_' :: w.toList

theorem toList_joined_cons (w : String) (words : List String) :
    (joined "_" (w :: words)).toList = w.toList ++ laterWords words := by
  induction words generalizing w with
  | nil => rw [toList_joined_singleton, laterWords, List.flatMap_nil, List.append_nil]
  | cons next words ih =>
      rw [toList_joined_cons_cons, ih, laterWords, laterWords, List.flatMap_cons]
      rfl

/-- The words after the first one are spelled back with their underscores. -/
theorem snakeFrom_camelFrom_laterWords {words : List String} (h : ∀ w ∈ words, IsSnakeWord w) :
    snakeFrom true (camelFrom true false (laterWords words)) = laterWords words := by
  induction words with
  | nil => rfl
  | cons w words ih =>
      obtain ⟨hw, hwords⟩ := List.forall_mem_cons.mp h
      obtain ⟨c, cs, hlist, hletter, hcs⟩ := hw.exists_cons
      obtain ⟨d, hcapital, hupper, hback⟩ := exists_upperChars_eq hletter
      have hsplit : laterWords (w :: words) = '_' :: c :: (cs ++ laterWords words) := by
        rw [laterWords, List.flatMap_cons, hlist]
        rfl
      -- the underscore is gone, and the letter after it has become a capital
      have hcamel : camelFrom true false ('_' :: c :: (cs ++ laterWords words)) =
          d :: (cs ++ camelFrom true false (laterWords words)) := by
        change camelFrom true true (c :: (cs ++ laterWords words)) = _
        rw [camelFrom, (of_isLower_or_isDigit (.inl hletter)).1, hcapital,
          camelFrom_append_of_word hcs]
        rfl
      rw [hsplit, hcamel, snakeFrom, hupper, hback, snakeFrom_append_of_word hcs, ih hwords]
      rfl

/-- Words with underscores between them are the outside spelling of their inside spelling. -/
theorem snakeCase_camelCase {words : List String} (hne : words ≠ [])
    (h : ∀ w ∈ words, IsSnakeWord w) :
    snakeCase (camelCase (joined "_" words)) = joined "_" words := by
  obtain ⟨w, words, rfl⟩ := List.exists_cons_of_ne_nil hne
  obtain ⟨hw, hwords⟩ := List.forall_mem_cons.mp h
  obtain ⟨c, cs, hlist, hletter, hcs⟩ := hw.exists_cons
  obtain ⟨hdelimiter, hnotUpper, hapart⟩ := of_isLower_or_isDigit (.inl hletter)
  have hlower := (of_isLower hletter).2
  have hsplit : (joined "_" (w :: words)).toList = c :: (cs ++ laterWords words) := by
    rw [toList_joined_cons, hlist]
    rfl
  have hcamel : camelFrom false false (c :: (cs ++ laterWords words)) =
      c :: (cs ++ camelFrom true false (laterWords words)) := by
    rw [camelFrom, hdelimiter, hlower, ← camelFrom_append_of_word hcs]
    rfl
  have hsnake : snakeFrom false (c :: (cs ++ camelFrom true false (laterWords words))) =
      c :: (cs ++ laterWords words) := by
    rw [snakeFrom, hnotUpper, hapart, ← snakeFrom_camelFrom_laterWords hwords,
      ← snakeFrom_append_of_word hcs, snakeFrom_camelFrom_laterWords hwords]
    rfl
  rw [snakeCase, camelCase, String.toList_ofList, hsplit, hcamel, hsnake, ← hsplit,
    String.ofList_toList]

/-! ### Paths -/

/-- The outside spelling of letters and digits has letters, digits and underscores. -/
theorem of_mem_snakeFrom {apart : Bool} {cs : List Char} (h : ∀ c ∈ cs, c.isAlphanum) {d : Char}
    (hd : d ∈ snakeFrom apart cs) : d = '_' ∨ d.isAlphanum := by
  have hall : ∀ c : Char, c.toNat < 128 → c.isAlphanum → (lowerChars c).all Char.isAlphanum :=
    forall_ascii (by decide +kernel)
  induction cs generalizing apart with
  | nil => cases hd
  | cons c cs ih =>
      obtain ⟨hc, hcs⟩ := List.forall_mem_cons.mp h
      rw [snakeFrom] at hd
      split at hd
      · rcases List.mem_append.mp hd with hd | hd
        · rcases List.mem_append.mp hd with hd | hd
          · split at hd
            · exact .inl (List.mem_singleton.mp hd)
            · cases hd
          · have hforms := hall c (toNat_lt_of_isAlphanum hc) hc
            exact .inr (List.all_eq_true.mp hforms d hd)
        · exact ih hcs hd
      · rcases List.mem_cons.mp hd with rfl | hd
        · exact .inr hc
        · exact ih hcs hd

/-- The outside spelling of a name in camel case has neither points nor white space. -/
theorem of_mem_snakeCase {s : String} (h : IsCamelName s) {d : Char}
    (hd : d ∈ (snakeCase s).toList) : d ≠ '.' ∧ isBlank d = false := by
  have hall : ∀ c : Char, c.toNat < 128 → c.isAlphanum → c ≠ '.' ∧ isBlank c = false :=
    forall_ascii (by decide +kernel)
  rw [snakeCase, String.toList_ofList] at hd
  rcases of_mem_snakeFrom (List.all_eq_true.mp h.2) hd with rfl | hd
  · exact ⟨by decide, rfl⟩
  · exact hall d (toNat_lt_of_isAlphanum hd) hd

/-- A path in the outside spelling is read back. -/
theorem camelPath_joined_snakeCase {segments : List String}
    (h : ∀ segment ∈ segments, IsCamelName segment) :
    camelPath (joined "." (segments.map snakeCase)) = joined "." segments := by
  by_cases hempty : segments = []
  · rw [hempty]
    rfl
  · have hpieces : pieces '.' (joined "." (segments.map snakeCase)) = segments.map snakeCase := by
      refine pieces_joined ?_ (by simpa using hempty)
      intro part hpart hpoint
      obtain ⟨segment, hsegment, rfl⟩ := List.mem_map.mp hpart
      exact (of_mem_snakeCase (h segment hsegment) hpoint).1 rfl
    have hback : ∀ segment ∈ segments, camelCase (trim (snakeCase segment)) = segment := by
      intro segment hsegment
      have hname := h segment hsegment
      rw [trim_of_not_blank fun d hd => (of_mem_snakeCase hname hd).2, camelCase_snakeCase hname]
    rw [camelPath, hpieces, List.map_map]
    exact congrArg (joined ".") ((List.map_congr_left hback).trans (List.map_id _))

/-! ### Both ways -/

/-- The two spellings undo each other: on names in camel case, which therefore have keys of their
own for their counts, on names in words with underscores between them, and on paths in the outside
spelling. -/
theorem spellings_undo_each_other :
    (∀ s, IsCamelName s → camelCase (snakeCase s) = s) ∧
      (∀ words, words ≠ [] → (∀ w ∈ words, IsSnakeWord w) →
        snakeCase (camelCase (joined "_" words)) = joined "_" words) ∧
      (∀ s t, IsCamelName s → IsCamelName t → countKey s = countKey t → s = t) ∧
      ∀ segments, (∀ segment ∈ segments, IsCamelName segment) →
        camelPath (joined "." (segments.map snakeCase)) = joined "." segments :=
  ⟨fun _ => camelCase_snakeCase, fun _ => snakeCase_camelCase, fun _ _ => eq_of_countKey_eq,
    fun _ => camelPath_joined_snakeCase⟩

/-- Of names with a run of capitals and with digits, and of a path with both. -/
theorem spellings_undo_each_other_users :
    snakeCase "createdByID2" = "created_by_i_d2" ∧ camelCase "created_by_i_d2" = "createdByID2" ∧
      snakeCase (camelCase "line1_item2") = "line1_item2" ∧
      ("noteIDs" ≠ "noteIds" → countKey "noteIDs" ≠ countKey "noteIds") ∧
      camelPath "created_by_i_d2.line1_item" = "createdByID2.line1Item" := by
  obtain ⟨hcamel, hwords, hcount, hpath⟩ := spellings_undo_each_other
  have hsnake : snakeCase "createdByID2" = "created_by_i_d2" := by decide +kernel
  refine ⟨hsnake, ?_, ?_, ?_, ?_⟩
  · rw [← hsnake]
    exact hcamel "createdByID2" (by decide)
  · exact hwords ["line1", "item2"] (by decide) (by decide)
  · exact mt (hcount "noteIDs" "noteIds" (by decide) (by decide))
  · have hjoined : joined "." (["createdByID2", "line1Item"].map snakeCase) =
        "created_by_i_d2.line1_item" := by decide +kernel
    rw [← hjoined]
    exact hpath ["createdByID2", "line1Item"] (by decide)

end EntityService.Naming
