import EntityService.Pattern.Reader
import EntityService.Proofs.Wildcards

/-!
# Placeholders in the language of patterns

A pattern with placeholders is written character by character as a text of the language of patterns.
A search for what that text denotes finds the texts that have the form.

## Main definitions

* `wildcardText` — a pattern with placeholders in the language of patterns
* `wildcardItem`, `addItems` — what stands for its characters
* `wildcardPattern` — what that text denotes
* `Denotes` — a text denotes a pattern, however large that is

## Main results

* `readBodyWith?_wildcards`, `denotes_wildcardText` — how the text is read
* `exists_testBit_ends_item` — what the search for one character of the pattern says about the form
* `occursIn_wildcardPattern` — what the text denotes occurs in the texts that have the form

## Design notes

The point and its repetition stand for the placeholders, in a mode in which the point stands for the
end of a line as well.  All other characters are written so that they have no meaning, and the two
conditions at the ends admit nothing but the whole text.

The search follows all places of the text together.  An occurrence that starts at one of some places
can reach the end of the text when the text has the form from one of them on; this is the induction
over the pattern, and with `%` the places grow to all later ones.
-/

namespace EntityService.Pattern

open EntityService.Store

/-! ## The text -/

/-- The mode in which the point stands for every character. -/
def dotAll : Flags := { dotAll := true }

/-- The characters that have a meaning in the language of patterns. -/
def metaChars : List Char :=
  ['\\', '.', '+', '*', '?', '(', ')', '|', '[', ']', '\x7b', '\x7d', '^', '$', '#', '&', '-', '~']

/-- What is written for one character of a pattern with placeholders. -/
def wildcardChars (p : Char) : List Char :=
  if p = '%' then ['.', '*']
  else if p = '_' then ['.']
  else if p ∈ metaChars then ['\\', p]
  else [p]

/-- A pattern with placeholders in the language of patterns. -/
def wildcardText (pattern : List Char) : String :=
  String.ofList ('(' :: '?' :: 's' :: ')' :: '^' :: (pattern.flatMap wildcardChars ++ ['$']))

/-- What the text for one character denotes. -/
def wildcardItem (p : Char) : Pattern :=
  if p = '%' then repeated (one (pointSet dotAll)) 0 none
  else if p = '_' then one (pointSet dotAll)
  else one (CharSet.one p)

/-- Add the items of a pattern with placeholders. -/
def addItems (done : Progress) : List Char → Progress
  | [] => done
  | p :: pattern => addItems (done.add (some (wildcardItem p))) pattern

/-- A text denotes a pattern, however large that is. -/
def Denotes (s : String) (p : Pattern) : Prop :=
  readBodyWith? (s.length + 1) {} [] {} s.toList = some (p, [], [])

/-! ## Reading -/

section Reading

variable (fuel : Nat) (names : List (List Char)) (done : Progress) (rest : List Char)

theorem readBodyWith?_plain {c : Char} (h : c ∉ metaChars) :
    readBodyWith? (fuel + 1) dotAll names done (c :: rest) =
      readBodyWith? fuel dotAll names (done.add (some (one (CharSet.one c)))) rest := by
  have hlayout : skipLayout dotAll (c :: rest) = c :: rest := rfl
  simp only [metaChars, List.mem_cons, List.not_mem_nil, or_false, not_or] at h
  rw [readBodyWith?, hlayout]
  split <;> simp_all [atomPattern?, dotAll]

theorem readBodyWith?_escaped {c : Char} (h : c ∈ metaChars) :
    readBodyWith? (fuel + 1) dotAll names done ('\\' :: c :: rest) =
      readBodyWith? fuel dotAll names (done.add (some (one (CharSet.one c)))) rest := by
  have hescape : ∀ c ∈ metaChars, readEscape? dotAll (c :: rest) = some (.literal c, rest) := by
    simp only [metaChars, List.forall_mem_cons]
    repeat refine ⟨rfl, ?_⟩
    exact nofun
  rw [readBodyWith?]
  show (readEscape? dotAll (c :: rest)).bind _ = _
  rw [hescape c h]
  rfl

theorem readBodyWith?_point :
    readBodyWith? (fuel + 1) dotAll names done ('.' :: rest) =
      readBodyWith? fuel dotAll names (done.add (some (one (pointSet dotAll)))) rest := rfl

theorem readBodyWith?_points (h : rest.head? ≠ some '?') :
    readBodyWith? (fuel + 2) dotAll names done ('.' :: '*' :: rest) =
      readBodyWith? fuel dotAll names
        (done.add (some (repeated (one (pointSet dotAll)) 0 none))) rest := by
  have hlazy : withoutLazySign rest = rest := by
    unfold withoutLazySign
    split
    · exact absurd rfl h
    · rfl
  rw [readBodyWith?_point, readBodyWith?]
  show readBodyWith? fuel dotAll names _ (withoutLazySign rest) = _
  rw [hlazy]
  rfl

end Reading

/-- No repetition is followed by the sign that would make it lazy. -/
theorem head?_wildcards (pattern : List Char) :
    (pattern.flatMap wildcardChars ++ ['$']).head? ≠ some '?' := by
  cases pattern with
  | nil => decide
  | cons p pattern =>
      rw [List.flatMap_cons, wildcardChars]
      split
      · simp
      · split
        · simp
        · split
          · simp
          · next hmeta =>
              have hquestion : '?' ∈ metaChars := by decide
              simpa using (ne_of_mem_of_not_mem hquestion hmeta).symm

/-- What is written for a character is read as the item for it. -/
theorem readBodyWith?_wildcard (names : List (List Char)) (done : Progress) (p : Char)
    {rest : List Char} (hrest : rest.head? ≠ some '?') {fuel : Nat}
    (hfuel : (wildcardChars p ++ rest).length < fuel) :
    ∃ left, rest.length < left ∧
      readBodyWith? fuel dotAll names done (wildcardChars p ++ rest) =
        readBodyWith? left dotAll names (done.add (some (wildcardItem p))) rest := by
  have hshort (n : Nat) (hn : n + rest.length < fuel) :
      ∃ left, rest.length < left ∧ fuel = left + n := ⟨fuel - n, by omega, by omega⟩
  rw [List.length_append] at hfuel
  unfold wildcardChars wildcardItem at *
  by_cases hany : p = '%'
  · simp only [hany, if_true] at hfuel ⊢
    obtain ⟨left, hleft, rfl⟩ := hshort 2 hfuel
    exact ⟨left, hleft, readBodyWith?_points left names done rest hrest⟩
  by_cases hone : p = '_'
  · simp only [hone] at hfuel ⊢
    obtain ⟨left, hleft, rfl⟩ := hshort 1 hfuel
    exact ⟨left, hleft, rfl⟩
  simp only [if_neg hany, if_neg hone] at hfuel ⊢
  by_cases hmeta : p ∈ metaChars
  · simp only [if_pos hmeta] at hfuel ⊢
    obtain ⟨left, hleft, rfl⟩ := hshort 1 (by simp at hfuel; omega)
    exact ⟨left, hleft, readBodyWith?_escaped left names done rest hmeta⟩
  · simp only [if_neg hmeta] at hfuel ⊢
    obtain ⟨left, hleft, rfl⟩ := hshort 1 hfuel
    exact ⟨left, hleft, readBodyWith?_plain left names done rest hmeta⟩

/-- Each character is read as the item for it. -/
theorem readBodyWith?_wildcards (names : List (List Char)) (done : Progress) (pattern : List Char)
    {fuel : Nat} (hfuel : (pattern.flatMap wildcardChars ++ ['$']).length < fuel) :
    readBodyWith? fuel dotAll names done (pattern.flatMap wildcardChars ++ ['$']) =
      some (((addItems done pattern).add (some (place (endPlace dotAll)))).pattern, names, []) := by
  induction pattern generalizing done fuel with
  | nil =>
      obtain ⟨fuel, rfl⟩ : ∃ left, fuel = left + 2 := ⟨fuel - 2, by simp at hfuel; omega⟩
      rfl
  | cons p pattern ih =>
      rw [List.flatMap_cons, List.append_assoc] at hfuel ⊢
      obtain ⟨left, hleft, hread⟩ :=
        readBodyWith?_wildcard names done p (head?_wildcards pattern) hfuel
      rw [hread, ih (done.add (some (wildcardItem p))) hleft, addItems]

/-- The conditions at the start and the items, which have been read before the end. -/
def wildcardProgress (pattern : List Char) : Progress :=
  addItems ((Progress.add {} none).add (some (place (startPlace dotAll)))) pattern

/-- What the text of a pattern with placeholders denotes. -/
def wildcardPattern (pattern : List Char) : Pattern :=
  ((wildcardProgress pattern).add (some (place (endPlace dotAll)))).pattern

theorem denotes_wildcardText (pattern : List Char) :
    Denotes (wildcardText pattern) (wildcardPattern pattern) := by
  rw [Denotes, wildcardText, String.toList_ofList, String.length_ofList]
  exact readBodyWith?_wildcards _ _ _ (by simp)

/-- There are no alternatives. -/
theorem wildcardPattern_eq_current (pattern : List Char) :
    wildcardPattern pattern =
      ((wildcardProgress pattern).add (some (place (endPlace dotAll)))).current := by
  have halternatives (done : Progress) :
      (addItems done pattern).alternatives = done.alternatives := by
    induction pattern generalizing done with
    | nil => rfl
    | cons p pattern ih => exact ih (done.add (some (wildcardItem p)))
  rw [wildcardPattern, Progress.pattern, Progress.add, wildcardProgress, halternatives]
  rfl

/-! ## Searching -/

/-- A place belongs to the places of some bits when its bit is set. -/
theorem testBit_ofBits (bits : List Bool) (i : Nat) :
    (ofBits bits).testBit i = bits[i]?.getD false := by
  induction bits generalizing i with
  | nil => simp [ofBits]
  | cons b bits ih =>
      have hhalf : (2 * ofBits bits + b.toNat) / 2 = ofBits bits := by
        have := b.toNat_lt
        omega
      have hlow : (2 * ofBits bits + b.toNat).testBit 0 = b := by
        cases b <;> simp [Nat.testBit_zero]
      cases i with
      | zero => exact hlow
      | succ i =>
          show (2 * ofBits bits + b.toNat).testBit (i + 1) = _
          rw [Nat.testBit_succ, hhalf, ih, List.getElem?_cons_succ]

section Items

variable {cs : List Char} {starts : Nat}

/-- One character is taken. -/
theorem testBit_ends_one (set : Char → Bool) (k : Nat) :
    ((one set).ends cs starts).testBit k ↔
      ∃ i c, k = i + 1 ∧ starts.testBit i ∧ cs[i]? = some c ∧ set c := by
  rw [ends, Nat.testBit_shiftLeft, placesBefore, Nat.testBit_and, testBit_ofBits, List.getElem?_map]
  cases k with
  | zero => simp
  | succ i => cases hc : cs[i]? <;> simp [hc]

/-- Any character is taken. -/
theorem testBit_ends_point (k : Nat) :
    ((one (pointSet dotAll)).ends cs starts).testBit k ↔
      ∃ i, k = i + 1 ∧ starts.testBit i ∧ i < cs.length := by
  rw [testBit_ends_one]
  constructor
  · rintro ⟨i, c, rfl, hstart, hc, -⟩
    exact ⟨i, rfl, hstart, (List.getElem?_eq_some_iff.mp hc).1⟩
  · rintro ⟨i, rfl, hstart, hi⟩
    exact ⟨i, cs[i], rfl, hstart, List.getElem?_eq_getElem hi, rfl⟩

/-- With any characters taken, at most a number of them, all places are reached that are not
further away. -/
theorem testBit_stepUpTo_point (times : Nat) {k : Nat} (hk : k ≤ cs.length) :
    (stepUpTo (ends cs (one (pointSet dotAll))) times starts).testBit k ↔
      ∃ i, i ≤ k ∧ k ≤ i + times ∧ starts.testBit i := by
  induction times generalizing starts with
  | zero =>
      constructor
      · exact fun h => ⟨k, Nat.le_refl k, Nat.le_refl k, h⟩
      · rintro ⟨i, hik, hki, h⟩
        exact Nat.le_antisymm hik hki ▸ h
  | succ times ih =>
      have hnext (i : Nat) : (starts ||| ends cs (one (pointSet dotAll)) starts).testBit i ↔
          starts.testBit i ∨ ∃ j, i = j + 1 ∧ starts.testBit j ∧ j < cs.length := by
        rw [Nat.testBit_or, Bool.or_eq_true, testBit_ends_point]
      rw [stepUpTo]
      split
      · next hclosed =>
          -- no place more is reached, so the places are all those after the first one
          rw [hclosed] at hnext
          clear ih
          constructor
          · exact fun h => ⟨k, Nat.le_refl k, Nat.le_add_right k _, h⟩
          · rintro ⟨i, hik, -, h⟩
            induction hik with
            | refl => exact h
            | step hij ihij =>
                have hj := Nat.lt_of_succ_le hk
                exact (hnext _).mpr (.inr ⟨_, rfl, ihij (Nat.le_of_lt hj), hj⟩)
      · rw [ih]
        simp only [hnext]
        constructor
        · rintro ⟨i, hik, hki, h | ⟨j, rfl, h, -⟩⟩
          · exact ⟨i, hik, by omega, h⟩
          · exact ⟨j, by omega, by omega, h⟩
        · rintro ⟨i, hik, hki, h⟩
          by_cases hnear : k ≤ i + times
          · exact ⟨i, hik, hnear, .inl h⟩
          · exact ⟨i + 1, by omega, by omega, .inr ⟨i, rfl, h, by omega⟩⟩

/-- Any characters are taken. -/
theorem testBit_ends_points {k : Nat} (hk : k ≤ cs.length) :
    ((repeated (one (pointSet dotAll)) 0 none).ends cs starts).testBit k ↔
      ∃ i, i ≤ k ∧ starts.testBit i := by
  rw [ends, stepTimes, testBit_stepUpTo_point _ hk]
  have hnear (i : Nat) : k ≤ i + (cs.length + 1) := by omega
  simp only [hnear, true_and]

/-- The item of a character that is no `%` takes the characters that it stands for. -/
theorem exists_wildcardItem_eq_one {p : Char} (hp : p ≠ '%') :
    ∃ set : Char → Bool, wildcardItem p = one set ∧ ∀ c, set c ↔ p = '_' ∨ c = p := by
  rw [wildcardItem, if_neg hp]
  split
  · next hone => exact ⟨_, rfl, fun c => iff_of_true rfl (.inl hone)⟩
  · next hone => exact ⟨_, rfl, fun c => by rw [CharSet.one, beq_iff_eq, or_iff_right hone]⟩

/-- The text has the form of a pattern from a place on that an item reaches, when it has the form
with the item's character in front from a place on where the item starts. -/
theorem exists_testBit_ends_item (p : Char) (pattern : List Char) :
    (∃ k, k ≤ cs.length ∧ ((wildcardItem p).ends cs starts).testBit k ∧
        HasForm pattern (cs.drop k)) ↔
      ∃ i, i ≤ cs.length ∧ starts.testBit i ∧ HasForm (p :: pattern) (cs.drop i) := by
  by_cases hp : p = '%'
  · rw [wildcardItem, if_pos hp, hp]
    simp only [hasForm_any_iff, List.drop_drop]
    constructor
    · rintro ⟨k, hk, hends, hform⟩
      obtain ⟨i, hik, hstart⟩ := (testBit_ends_points hk).mp hends
      exact ⟨i, by omega, hstart, k - i, by rwa [Nat.add_sub_cancel' hik]⟩
    · rintro ⟨i, hi, hstart, j, hform⟩
      by_cases hj : i + j ≤ cs.length
      · exact ⟨i + j, hj, (testBit_ends_points hj).mpr ⟨i, by omega, hstart⟩, hform⟩
      · rw [List.drop_of_length_le (by omega)] at hform
        exact ⟨cs.length, Nat.le_refl _, (testBit_ends_points (Nat.le_refl _)).mpr ⟨i, hi, hstart⟩,
          by rwa [List.drop_length]⟩
  · obtain ⟨set, hitem, hset⟩ := exists_wildcardItem_eq_one hp
    rw [hitem]
    constructor
    · rintro ⟨k, hk, hends, hform⟩
      obtain ⟨i, c, rfl, hstart, hc, hmem⟩ := (testBit_ends_one set k).mp hends
      obtain ⟨hi, rfl⟩ := List.getElem?_eq_some_iff.mp hc
      refine ⟨i, Nat.le_of_lt hi, hstart, ?_⟩
      rw [List.drop_eq_getElem_cons hi]
      exact (hasForm_cons_cons_iff hp).mpr ⟨(hset _).mp hmem, hform⟩
    · rintro ⟨i, hi, hstart, hform⟩
      rcases Nat.eq_or_lt_of_le hi with rfl | hi
      · rw [List.drop_length] at hform
        exact absurd hform (not_hasForm_cons_nil hp)
      · rw [List.drop_eq_getElem_cons hi] at hform
        obtain ⟨hmem, hform⟩ := (hasForm_cons_cons_iff hp).mp hform
        exact ⟨i + 1, hi, (testBit_ends_one set _).mpr
          ⟨i, cs[i], rfl, hstart, List.getElem?_eq_getElem hi, (hset _).mpr hmem⟩, hform⟩

/-- The items of an alternative start where those before them end. -/
theorem ends_current (done : Progress) :
    done.current.ends cs starts = (done.items.filterMap id).foldr (ends cs) starts := by
  have hfold (last : Pattern) (before : List Pattern) :
      (before.foldl (fun after item => sequence item after) last).ends cs starts =
        last.ends cs (before.foldr (ends cs) starts) := by
    induction before generalizing last with
    | nil => rfl
    | cons item before ih =>
        rw [List.foldl_cons, ih]
        rfl
  rw [Progress.current]
  cases done.items.filterMap id with
  | nil => rfl
  | cons last before => exact hfold last before

theorem ends_add (done : Progress) (item : Pattern) :
    (done.add (some item)).current.ends cs starts =
      item.ends cs (done.current.ends cs starts) := by
  rw [ends_current, ends_current]
  rfl

/-- The items of a pattern take a text up to its end when it has the form from one of the places on
where they start. -/
theorem testBit_ends_wildcards (pattern : List Char) (done : Progress) :
    ((addItems done pattern).current.ends cs starts).testBit cs.length ↔
      ∃ i, i ≤ cs.length ∧ (done.current.ends cs starts).testBit i ∧
        HasForm pattern (cs.drop i) := by
  induction pattern generalizing done with
  | nil =>
      simp only [addItems, hasForm_nil_iff, List.drop_eq_nil_iff]
      constructor
      · exact fun h => ⟨_, Nat.le_refl _, h, Nat.le_refl _⟩
      · rintro ⟨i, hi, h, hlength⟩
        exact Nat.le_antisymm hi hlength ▸ h
  | cons p pattern ih =>
      rw [addItems, ih]
      simp only [ends_add]
      exact exists_testBit_ends_item p pattern

end Items

/-! ### The ends of the text -/

section Places

variable {cs : List Char}

theorem testBit_allPlaces (i : Nat) : (allPlaces cs).testBit i ↔ i ≤ cs.length := by
  rw [allPlaces, Nat.one_shiftLeft, Nat.testBit_two_pow_sub_one, decide_eq_true_eq, Nat.lt_succ_iff]

/-- The condition at the start admits the first place only. -/
theorem testBit_ends_startPlace (starts i : Nat) :
    ((place (startPlace dotAll)).ends cs starts).testBit i ↔ starts.testBit i ∧ i = 0 := by
  have hlater (c : Char) (cs : List Char) (i : Nat) :
      (placesBetween (startPlace dotAll) (some c) cs)[i]?.getD false = false := by
    induction cs generalizing c i with
    | nil => cases i <;> rfl
    | cons d cs ih =>
        cases i with
        | zero => rfl
        | succ i => exact ih d i
  rw [ends, Nat.testBit_and, testBit_ofBits, Bool.and_eq_true]
  refine and_congr_right fun _ => ?_
  cases cs with
  | nil => cases i <;> simp [placesBetween, startPlace]
  | cons c cs =>
      cases i with
      | zero => exact iff_of_true rfl rfl
      | succ i =>
          rw [placesBetween, List.getElem?_cons_succ, hlater]
          exact iff_of_false Bool.false_ne_true (Nat.succ_ne_zero i)

/-- The condition at the end admits the last place only. -/
theorem testBit_ends_endPlace (starts i : Nat) :
    ((place (endPlace dotAll)).ends cs starts).testBit i ↔ starts.testBit i ∧ i = cs.length := by
  have hlast (before : Option Char) (cs : List Char) (i : Nat) :
      (placesBetween (endPlace dotAll) before cs)[i]?.getD false ↔ i = cs.length := by
    induction cs generalizing before i with
    | nil => cases i <;> simp [placesBetween, endPlace]
    | cons c cs ih =>
        cases i with
        | zero => simp [placesBetween, endPlace, dotAll]
        | succ i => rw [placesBetween, List.getElem?_cons_succ, ih, List.length_cons, Nat.succ_inj]
  rw [ends, Nat.testBit_and, testBit_ofBits, Bool.and_eq_true]
  exact and_congr_right fun _ => hlast none cs i

end Places

/-- What a pattern with placeholders denotes in the language of patterns occurs in the texts that
have its form, and in no others. -/
theorem occursIn_wildcardPattern (pattern : List Char) (text : String) :
    (wildcardPattern pattern).occursIn text ↔ HasForm pattern text.toList := by
  have hstart (i : Nat) : ((Progress.add (Progress.add {} none)
      (some (place (startPlace dotAll)))).current.ends text.toList
        (allPlaces text.toList)).testBit i ↔ i = 0 := by
    rw [ends_add, testBit_ends_startPlace]
    refine and_iff_right_of_imp ?_
    rintro rfl
    exact (testBit_allPlaces 0).mpr (Nat.zero_le _)
  have hsome (places : Nat) : places ≠ 0 ↔ ∃ k, places.testBit k :=
    ⟨Nat.exists_testBit_of_ne_zero, fun ⟨k, hk⟩ hzero => by simp [hzero] at hk⟩
  rw [occursIn, bne_iff_ne, hsome, wildcardPattern_eq_current, ends_add]
  simp only [testBit_ends_endPlace, exists_eq_right, wildcardProgress, testBit_ends_wildcards,
    hstart]
  constructor
  · rintro ⟨i, -, rfl, h⟩
    exact h
  · exact fun h => ⟨0, Nat.zero_le _, rfl, h⟩

end EntityService.Pattern
