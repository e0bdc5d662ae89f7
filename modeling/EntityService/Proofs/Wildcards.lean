import EntityService.Store.Like

/-!
# The forms of texts

What it means that a text has the form of a pattern with placeholders, and that this is what is
found out about cells.

## Main definitions

* `HasForm` — a text has the form of a pattern
* `IsLiteral` — a pattern has no placeholders

## Main results

* `isLike_iff_hasForm` — the texts that are found to have a form are those that have it
* `isLike_iff_eq` — only one text has the form of a pattern without placeholders
* `hasForm_contains_iff` — the texts that hold another one

## Design notes

The form is a relation that follows the pattern and does not say how many characters a `%` stands
for.  What is computed marks the ends of the text that have a form, so the proof goes by the ends
of the text as well.
-/

namespace EntityService.Store

open EntityService.Json

/-- A text has the form of a pattern: a `%` stands for any characters, a `_` for one character, and
every other character for itself. -/
inductive HasForm : List Char → List Char → Prop
  | nil : HasForm [] []
  | any {pattern text : List Char} (skipped : List Char) (h : HasForm pattern text) :
      HasForm ('%' :: pattern) (skipped ++ text)
  | one {pattern text : List Char} (c : Char) (h : HasForm pattern text) :
      HasForm ('_' :: pattern) (c :: text)
  | char {pattern text : List Char} {c : Char} (hany : c ≠ '%') (hone : c ≠ '_')
      (h : HasForm pattern text) : HasForm (c :: pattern) (c :: text)

/-- A pattern has no placeholders. -/
def IsLiteral (pattern : List Char) : Prop := ∀ p ∈ pattern, p ≠ '%' ∧ p ≠ '_'

instance : DecidablePred IsLiteral := List.decidableBAll fun p => p ≠ '%' ∧ p ≠ '_'

/-! ## Patterns by their first character -/

section Form

variable {p : Char} {pattern text : List Char}

theorem hasForm_nil_iff : HasForm [] text ↔ text = [] := by
  constructor
  · intro h
    cases h
    rfl
  · rintro rfl
    exact .nil

/-- What follows a `%` is the form of some end of the text. -/
theorem hasForm_any_iff : HasForm ('%' :: pattern) text ↔ ∃ i, HasForm pattern (text.drop i) := by
  constructor
  · intro h
    cases h with
    | any skipped h => exact ⟨skipped.length, by rwa [List.drop_left]⟩
    | char hany => exact absurd rfl hany
  · rintro ⟨i, h⟩
    have hany := HasForm.any (text.take i) h
    rwa [List.take_append_drop] at hany

theorem not_hasForm_cons_nil (hp : p ≠ '%') : ¬HasForm (p :: pattern) [] := by
  generalize htext : ([] : List Char) = text
  intro h
  cases h with
  | any => exact hp rfl
  | one => cases htext
  | char => cases htext

/-- The first character of a text is one that the first character of the pattern stands for. -/
theorem hasForm_cons_cons_iff (hp : p ≠ '%') {c : Char} :
    HasForm (p :: pattern) (c :: text) ↔ (p = '_' ∨ c = p) ∧ HasForm pattern text := by
  constructor
  · generalize htext : c :: text = whole
    intro h
    cases h with
    | any => exact absurd rfl hp
    | one _ h =>
        obtain ⟨rfl, rfl⟩ := List.cons.inj htext
        exact ⟨.inl rfl, h⟩
    | char _ _ h =>
        obtain ⟨rfl, rfl⟩ := List.cons.inj htext
        exact ⟨.inr rfl, h⟩
  · rintro ⟨hc, h⟩
    by_cases hone : p = '_'
    · exact hone ▸ .one c h
    · obtain rfl := hc.resolve_left hone
      exact .char hp hone h

/-- Characters that are no placeholders stand at the start of the text themselves. -/
theorem hasForm_append_iff {plain : List Char} (h : IsLiteral plain) :
    HasForm (plain ++ pattern) text ↔ ∃ rest, text = plain ++ rest ∧ HasForm pattern rest := by
  induction plain generalizing text with
  | nil => simp
  | cons p plain ih =>
      obtain ⟨⟨hany, hone⟩, hplain⟩ := List.forall_mem_cons.mp h
      cases text with
      | nil => exact iff_of_false (not_hasForm_cons_nil hany) (by simp)
      | cons c cs =>
          rw [List.cons_append, hasForm_cons_cons_iff hany, ih hplain, or_iff_right hone]
          simp only [List.cons_append, List.cons.injEq, and_assoc, exists_and_left]

/-- Between two `%` stands what the text holds somewhere. -/
theorem hasForm_contains_iff {plain : List Char} (h : IsLiteral plain) :
    HasForm ('%' :: (plain ++ ['%'])) text ↔ plain <:+: text := by
  have hall (rest : List Char) : HasForm ['%'] rest :=
    hasForm_any_iff.mpr ⟨rest.length, by rw [List.drop_length]; exact .nil⟩
  rw [hasForm_any_iff]
  simp only [hasForm_append_iff h, hall, and_true]
  constructor
  · rintro ⟨i, rest, hrest⟩
    exact ⟨text.take i, rest, by rw [List.append_assoc, ← hrest, List.take_append_drop]⟩
  · rintro ⟨before, after, rfl⟩
    exact ⟨before.length, after, by rw [List.append_assoc, List.drop_left]⟩

end Form

/-! ## What is found out -/

/-- The first mark is the one of the whole text. -/
theorem likeEnds_eq_cons {pattern cs : List Char} {rest : List Bool}
    (h : ∃ b, likeEnds pattern cs = b :: rest) :
    likeEnds pattern cs = isLike pattern cs :: rest := by
  obtain ⟨b, hmarks⟩ := h
  rw [isLike, hmarks]
  rfl

/-- The marks that follow are those of the text without its first character. -/
theorem likeEnds_cons (pattern : List Char) (c : Char) (cs : List Char) :
    likeEnds pattern (c :: cs) = isLike pattern (c :: cs) :: likeEnds pattern cs := by
  refine likeEnds_eq_cons ?_
  induction pattern with
  | nil => exact ⟨false, rfl⟩
  | cons p pattern ih =>
      obtain ⟨b, hmarks⟩ := ih
      unfold likeEnds
      dsimp only
      rw [hmarks]
      split
      · exact ⟨_, rfl⟩
      · exact ⟨_, rfl⟩

theorem likeEnds_nil (pattern : List Char) : likeEnds pattern [] = [isLike pattern []] := by
  refine likeEnds_eq_cons ?_
  induction pattern with
  | nil => exact ⟨true, rfl⟩
  | cons p pattern ih =>
      obtain ⟨b, hmarks⟩ := ih
      unfold likeEnds
      dsimp only
      rw [hmarks]
      split
      · exact ⟨_, rfl⟩
      · exact ⟨_, rfl⟩

/-- A mark is set when some end of the text has the form. -/
theorem any_likeEnds_iff (pattern cs : List Char) :
    (likeEnds pattern cs).any id ↔ ∃ i, isLike pattern (cs.drop i) := by
  induction cs with
  | nil => simp [likeEnds_nil]
  | cons c cs ih =>
      rw [likeEnds_cons, List.any_cons, Bool.or_eq_true, ih, id_eq]
      constructor
      · rintro (h | ⟨i, h⟩)
        · exact ⟨0, h⟩
        · exact ⟨i + 1, h⟩
      · rintro ⟨i | i, h⟩
        · exact .inl h
        · exact .inr ⟨i, h⟩

section Found

variable {p : Char} (pattern : List Char)

theorem isLike_any (cs : List Char) :
    isLike ('%' :: pattern) cs = (likeEnds pattern cs).any id := by
  have hends : likeEnds ('%' :: pattern) cs = anyFrom (likeEnds pattern cs) := by
    rw [likeEnds, if_pos rfl]
  rw [isLike, hends]
  cases cs with
  | nil => simp [likeEnds_nil, anyFrom]
  | cons c cs => simp [likeEnds_cons, anyFrom]

theorem isLike_cons_cons (hp : p ≠ '%') (c : Char) (cs : List Char) :
    isLike (p :: pattern) (c :: cs) = (decide (p = '_' ∨ c = p) && isLike pattern cs) := by
  have hends : likeEnds (p :: pattern) (c :: cs) =
      stepBack (fun c => p = '_' || c = p) (c :: cs) (isLike pattern (c :: cs) ::
        likeEnds pattern cs) := by
    rw [← likeEnds_cons, likeEnds, if_neg hp]
  rw [isLike, hends]
  simp [stepBack, isLike]

theorem isLike_cons_nil (hp : p ≠ '%') : isLike (p :: pattern) [] = false := by
  rw [isLike, likeEnds, if_neg hp]
  rfl

end Found

/-- The texts that are found to have the form of a pattern are those that have it. -/
theorem isLike_iff_hasForm (pattern text : List Char) :
    isLike pattern text ↔ HasForm pattern text := by
  induction pattern generalizing text with
  | nil =>
      rw [hasForm_nil_iff]
      cases text <;> simp [isLike, likeEnds]
  | cons p pattern ih =>
      by_cases hp : p = '%'
      · rw [hp, isLike_any, any_likeEnds_iff, hasForm_any_iff]
        simp only [ih]
      · cases text with
        | nil =>
            rw [isLike_cons_nil pattern hp]
            exact iff_of_false Bool.false_ne_true (not_hasForm_cons_nil hp)
        | cons c cs =>
            rw [isLike_cons_cons pattern hp, Bool.and_eq_true, decide_eq_true_eq, ih,
              hasForm_cons_cons_iff hp]

/-- A pattern without placeholders is the form of no other text than itself. -/
theorem isLike_iff_eq {pattern : List Char} (h : IsLiteral pattern) (text : List Char) :
    isLike pattern text ↔ text = pattern := by
  have happend : HasForm (pattern ++ []) text ↔ ∃ rest, text = pattern ++ rest ∧ HasForm [] rest :=
    hasForm_append_iff h
  simpa [isLike_iff_hasForm, hasForm_nil_iff] using happend

end EntityService.Store
