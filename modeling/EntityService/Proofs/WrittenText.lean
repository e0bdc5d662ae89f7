import EntityService.Proofs.WrittenNumeral

/-!
# Texts are read as they are written

The text of a value, read as a tree.

## Main results

* `readQuoted_quoted` — what stands between quotes is read as it was
* `readTreeWith_text` — the text of a value in front of other text is read as the tree of the value
* `readTree?_text` — also when it stands alone

## Design notes

The reader is bounded by the length of its text, and so is the induction: each call of a reader
takes at least one character and passes on one less of its bound.  A text in front of other text is
read up to its end only if the other text does not go on with it, which matters for numbers alone.
-/

namespace EntityService.Json

open EntityService.Number

/-! ### Texts between quotes -/

theorem escapedControl_ofNat : ∀ n < 0x20, escapedControl (Char.ofNat n) =
    ['\\', 'u', '0', '0', Nat.digitChar (n / 16), Nat.digitChar (n % 16)] := by decide

theorem hexValue?_digitChar : ∀ n < 0x20,
    hexValue? '0' '0' (Nat.digitChar (n / 16)) (Nat.digitChar (n % 16)) = some n := by decide

theorem not_surrogate : ∀ n < 0x20, isHighSurrogate n = false ∧ isLowSurrogate n = false := by
  decide

/-- A character is read as it is escaped. -/
theorem readQuoted_escapedChar (c : Char) (done rest : List Char) :
    readQuoted done none true (escapedChar c ++ rest) = readQuoted (c :: done) none true rest := by
  unfold escapedChar
  split
  iterate 7 rfl
  · next hquote hbackslash _ _ _ _ _ =>
      split
      · next hcontrol =>
          obtain ⟨hhigh, hlow⟩ := not_surrogate c.toNat hcontrol
          have hescaped := escapedControl_ofNat c.toNat hcontrol
          rw [Char.ofNat_toNat] at hescaped
          rw [hescaped]
          simp only [List.cons_append, List.nil_append]
          rw [readQuoted, hexValue?_digitChar c.toNat hcontrol]
          simp only [hhigh, hlow, Bool.false_eq_true, if_false, Char.ofNat_toNat]
      · next hplain =>
          rw [List.singleton_append, readQuoted.eq_def]
          split
          · next heq => cases heq
          · next heq =>
              cases heq
              exact absurd rfl hquote
          · next heq =>
              cases heq
              exact absurd rfl hbackslash
          · next heq =>
              cases heq
              exact absurd rfl hbackslash
          · next heq =>
              cases heq
              rw [if_neg (by simpa [hplain] using hbackslash)]
              rfl

theorem readQuoted_flatMap (cs done rest : List Char) :
    readQuoted done none true (cs.flatMap escapedChar ++ '"' :: rest) =
      some (some (String.ofList (done.reverse ++ cs)), rest) := by
  induction cs generalizing done with
  | nil => simp [readQuoted]
  | cons c cs ih =>
      rw [List.flatMap_cons, List.append_assoc, readQuoted_escapedChar, ih]
      simp

theorem toList_quoted (s : String) :
    (quoted s).toList = '"' :: (s.toList.flatMap escapedChar ++ ['"']) := by
  simp [quoted, String.toList_append]

theorem quoted_append (s : String) (cs : List Char) :
    (quoted s).toList ++ cs = '"' :: (s.toList.flatMap escapedChar ++ '"' :: cs) := by
  rw [toList_quoted, List.cons_append, List.append_assoc, List.singleton_append]

theorem readQuoted_quoted (s : String) (rest : List Char) :
    readQuoted [] none true (s.toList.flatMap escapedChar ++ '"' :: rest) =
      some (some s, rest) := by
  rw [readQuoted_flatMap]
  simp

/-! ### Numerals among other values -/

section Numerals

variable {rest : List Char}

theorem skipSpace_cons {c : Char} (h : isSpace c = false) (cs : List Char) :
    skipSpace (c :: cs) = c :: cs :=
  List.dropWhile_cons_of_neg (by simp [h])

/-- A numeral begins with a minus or a digit. -/
theorem Numeral.IsProper.exists_cons {n : Numeral} (h : n.IsProper) :
    ∃ c cs, n.spelling = c :: cs ∧ (c = '-' ∨ isDigit c) := by
  obtain ⟨c, digits, hwhole⟩ := List.exists_cons_of_ne_nil h.whole.1
  have hdigit : isDigit c := List.all_eq_true.mp h.whole.2 c (by simp [hwhole])
  cases hnegative : n.negative with
  | true => exact ⟨'-', n.unsignedSpelling, by simp [Numeral.spelling, hnegative], .inl rfl⟩
  | false =>
      have hspelling : n.spelling = c :: (digits ++
          (Numeral.fractionSpelling n.fraction ++ Numeral.exponentSpelling n.exponent)) := by
        simp [Numeral.spelling, Numeral.unsignedSpelling, hnegative, hwhole]
      exact ⟨c, _, hspelling, .inr hdigit⟩

/-- No numeral begins like white space or like another kind of value. -/
theorem not_mem_of_numeral {c : Char} (h : c = '-' ∨ isDigit c) :
    c ∉ [' ', '\t', '\n', '\r', ']', '"', '[', '\x7b', 't', 'f', 'n'] := by
  rcases h with rfl | h
  · decide
  · intro hmem
    have hall : ([' ', '\t', '\n', '\r', ']', '"', '[', '\x7b', 't', 'f', 'n'].all fun d =>
        !isDigit d) = true := by decide
    have hnot := List.all_eq_true.mp hall c hmem
    rw [h] at hnot
    cases hnot

theorem isSpace_of_numeral {c : Char} (h : c = '-' ∨ isDigit c) : isSpace c = false := by
  have hnot := not_mem_of_numeral h
  simp only [List.mem_cons, not_or] at hnot
  simp [isSpace, hnot]

theorem readTreeWith_spelling {n : Numeral} (h : n.IsProper) (hrest : IsDelimited rest)
    (fuel : Nat) : readTreeWith (fuel + 1) (n.spelling ++ rest) = some (.number n, rest) := by
  have hread := readNumeral_spelling h hrest
  obtain ⟨c, cs, hspelling, hc⟩ := h.exists_cons
  have hnot := not_mem_of_numeral hc
  simp only [List.mem_cons, not_or] at hnot
  rw [hspelling, List.cons_append] at hread ⊢
  rw [readTreeWith.eq_def]
  dsimp only
  rw [skipSpace_cons (isSpace_of_numeral hc)]
  split
  · next heq => cases heq
  iterate 6
    · next heq =>
        cases heq
        simp at hnot
  · rw [hread]
    rfl

/-- The text of a value begins neither with white space nor with a closing bracket. -/
theorem Value.exists_cons_text (v : Value) :
    ∃ c cs, v.text.toList = c :: cs ∧ isSpace c = false ∧ c ≠ ']' := by
  have hnumeral : ∀ {n : Numeral} {s : String}, n.IsProper → n.spelling = s.toList →
      ∃ c cs, s.toList = c :: cs ∧ isSpace c = false ∧ c ≠ ']' := by
    intro n s hn hs
    obtain ⟨c, cs, hspelling, hc⟩ := hn.exists_cons
    have hnot := not_mem_of_numeral hc
    simp only [List.mem_cons, not_or] at hnot
    exact ⟨c, cs, hs ▸ hspelling, isSpace_of_numeral hc, hnot.2.2.2.2.1⟩
  cases v with
  | null => exact ⟨'n', _, rfl, rfl, by decide⟩
  | bool b =>
      cases b with
      | true => exact ⟨'t', _, rfl, rfl, by decide⟩
      | false => exact ⟨'f', _, rfl, rfl, by decide⟩
  | number n =>
      cases n with
      | integer n =>
          exact hnumeral (Tree.isProper_numeralOfInt n) (Tree.spelling_numeralOfInt n)
      | real x =>
          by_cases hfinite : x.isFinite
          · rw [Value.text, Number.text, if_pos hfinite]
            exact hnumeral (Tree.isProper_numeralOfDouble x) (Tree.spelling_numeralOfDouble hfinite)
          · rw [Value.text, Number.text, if_neg hfinite]
            exact ⟨'n', _, rfl, rfl, by decide⟩
  | string s => exact ⟨'"', _, toList_quoted s, rfl, by decide⟩
  | array items =>
      exact ⟨'[', (Text.joined "," (Value.itemTexts items)).toList ++ [']'],
        by simp [Value.text, String.toList_append], rfl, by decide⟩
  | object members =>
      exact ⟨'\x7b', (Text.joined "," (Value.memberTexts members)).toList ++ ['\x7d'],
        by simp [Value.text, String.toList_append], rfl, by decide⟩

theorem readTreeWith_number (n : Number) (hrest : IsDelimited rest) (fuel : Nat) :
    readTreeWith (fuel + 1) (n.text.toList ++ rest) = some (Tree.ofNumber n, rest) := by
  cases n with
  | integer n =>
      have hread := readTreeWith_spelling (Tree.isProper_numeralOfInt n) hrest fuel
      rwa [Tree.spelling_numeralOfInt] at hread
  | real x =>
      by_cases hfinite : x.isFinite
      · have hread := readTreeWith_spelling (Tree.isProper_numeralOfDouble x) hrest fuel
        rw [Tree.spelling_numeralOfDouble hfinite] at hread
        rwa [Number.text, if_pos hfinite, Tree.ofNumber, if_pos hfinite]
      · rw [Number.text, if_neg hfinite, Tree.ofNumber, if_neg hfinite]
        rfl

end Numerals

/-! ### One step of a reader -/

section Steps

variable {fuel : Nat} {cs : List Char} {t : Tree}

theorem readTreeWith_quote (fuel : Nat) (cs : List Char) :
    readTreeWith (fuel + 1) ('"' :: cs) =
      (readQuoted [] none true cs).map fun (s, rest) => (.string s, rest) := rfl

theorem readTreeWith_bracket {c : Char} (hspace : isSpace c = false) (hclosing : c ≠ ']') :
    readTreeWith (fuel + 1) ('[' :: c :: cs) =
      (readItemsWith fuel (c :: cs) []).map fun (items, rest) => (.array items, rest) := by
  have hopening : ∀ cs, skipSpace ('[' :: cs) = '[' :: cs := skipSpace_cons rfl
  simp only [readTreeWith, hopening, skipSpace_cons hspace]
  split
  · next heq =>
      cases heq
      exact absurd rfl hclosing
  · rfl

theorem readTreeWith_brace (fuel : Nat) (cs : List Char) :
    readTreeWith (fuel + 1) ('\x7b' :: '"' :: cs) =
      (readMembersWith fuel ('"' :: cs) []).map fun (members, rest) => (.object members, rest) :=
  rfl

theorem readItemsWith_comma {left : List Char} (h : readTreeWith fuel cs = some (t, ',' :: left))
    (done : List Tree) :
    readItemsWith (fuel + 1) cs done = readItemsWith fuel left (t :: done) := by
  rw [readItemsWith, h]
  rfl

theorem readItemsWith_closing {left : List Char} (h : readTreeWith fuel cs = some (t, ']' :: left))
    (done : List Tree) :
    readItemsWith (fuel + 1) cs done = some (done.reverse ++ [t], left) := by
  rw [readItemsWith, h, ← List.reverse_cons]
  rfl

theorem readMembersWith_comma {left : List Char} (h : readTreeWith fuel cs = some (t, ',' :: left))
    (key : String) (done : List (Option String × Tree)) :
    readMembersWith (fuel + 1) ((quoted key).toList ++ ':' :: cs) done =
      readMembersWith fuel left ((some key, t) :: done) := by
  have hquote : ∀ cs, skipSpace ('"' :: cs) = '"' :: cs := skipSpace_cons rfl
  have hcolon : ∀ cs, skipSpace (':' :: cs) = ':' :: cs := skipSpace_cons rfl
  have hcomma : ∀ cs, skipSpace (',' :: cs) = ',' :: cs := skipSpace_cons rfl
  rw [quoted_append]
  simp only [readMembersWith, hquote, readQuoted_quoted, hcolon, h, hcomma]

theorem readMembersWith_closing {left : List Char}
    (h : readTreeWith fuel cs = some (t, '\x7d' :: left)) (key : String)
    (done : List (Option String × Tree)) :
    readMembersWith (fuel + 1) ((quoted key).toList ++ ':' :: cs) done =
      some (done.reverse ++ [(some key, t)], left) := by
  have hquote : ∀ cs, skipSpace ('"' :: cs) = '"' :: cs := skipSpace_cons rfl
  have hcolon : ∀ cs, skipSpace (':' :: cs) = ':' :: cs := skipSpace_cons rfl
  have hbrace : ∀ cs, skipSpace ('\x7d' :: cs) = '\x7d' :: cs := skipSpace_cons rfl
  rw [quoted_append, ← List.reverse_cons]
  simp only [readMembersWith, hquote, readQuoted_quoted, hcolon, h, hbrace]

end Steps

/-! ### Whole values -/

theorem exists_cons_itemTexts (v : Value) (items : List Value) :
    ∃ c cs, (Text.joined "," (Value.itemTexts (v :: items))).toList = c :: cs ∧
      isSpace c = false ∧ c ≠ ']' := by
  obtain ⟨c, cs, hcons, hspace, hclosing⟩ := v.exists_cons_text
  cases items with
  | nil => exact ⟨c, cs, (Text.toList_joined_singleton _ _).trans hcons, hspace, hclosing⟩
  | cons w items =>
      refine ⟨c, cs ++ ',' :: (Text.joined "," (Value.itemTexts (w :: items))).toList, ?_, hspace,
        hclosing⟩
      rw [Value.itemTexts, Value.itemTexts, Text.toList_joined_cons_cons, hcons, List.cons_append]
      rfl

theorem exists_cons_memberTexts (key : String) (v : Value) (members : List (String × Value)) :
    ∃ cs, (Text.joined "," (Value.memberTexts ((key, v) :: members))).toList = '"' :: cs := by
  have hmember : (quoted key ++ ":" ++ v.text).toList =
      '"' :: (key.toList.flatMap escapedChar ++ '"' :: ':' :: v.text.toList) := by
    simp [String.toList_append, toList_quoted]
  cases members with
  | nil => exact ⟨_, (Text.toList_joined_singleton _ _).trans hmember⟩
  | cons next members =>
      rw [Value.memberTexts, Value.memberTexts, Text.toList_joined_cons_cons, hmember]
      exact ⟨_, rfl⟩

mutual
/-- The text of a value is read as the tree of the value. -/
theorem readTreeWith_text (v : Value) {rest : List Char} (hrest : IsDelimited rest) (fuel : Nat)
    (hfuel : v.text.toList.length ≤ fuel) :
    readTreeWith fuel (v.text.toList ++ rest) = some (Tree.ofValue v, rest) := by
  obtain ⟨c, cs, hcons, hspace, -⟩ := v.exists_cons_text
  cases fuel with
  | zero =>
      rw [hcons] at hfuel
      cases hfuel
  | succ fuel =>
      cases v with
      | null => rfl
      | bool b => cases b <;> rfl
      | number n => exact readTreeWith_number n hrest fuel
      | string s =>
          rw [Value.text, quoted_append, readTreeWith_quote, readQuoted_quoted]
          rfl
      | array items =>
          cases items with
          | nil => rfl
          | cons v items =>
              have htext : (Value.array (v :: items)).text.toList =
                  '[' :: ((Text.joined "," (Value.itemTexts (v :: items))).toList ++ [']']) := by
                simp [Value.text, String.toList_append]
              rw [htext, List.length_cons, List.length_append] at hfuel
              have hread := readItemsWith_texts v items [] rest fuel (Nat.le_of_succ_le_succ hfuel)
              rw [htext, List.cons_append, List.append_assoc, List.singleton_append]
              obtain ⟨c, cs, hcons, hspace, hclosing⟩ := exists_cons_itemTexts v items
              rw [hcons, List.cons_append] at hread ⊢
              rw [readTreeWith_bracket hspace hclosing, hread]
              rfl
      | object members =>
          cases members with
          | nil => rfl
          | cons member members =>
              obtain ⟨key, v⟩ := member
              have htext : (Value.object ((key, v) :: members)).text.toList = '\x7b' ::
                  ((Text.joined "," (Value.memberTexts ((key, v) :: members))).toList ++
                    ['\x7d']) := by
                simp [Value.text, String.toList_append]
              rw [htext, List.length_cons, List.length_append] at hfuel
              have hread := readMembersWith_texts key v members [] rest fuel
                (Nat.le_of_succ_le_succ hfuel)
              rw [htext, List.cons_append, List.append_assoc, List.singleton_append]
              obtain ⟨cs, hcons⟩ := exists_cons_memberTexts key v members
              rw [hcons, List.cons_append] at hread ⊢
              rw [readTreeWith_brace, hread]
              rfl
termination_by fuel
decreasing_by all_goals omega

theorem readItemsWith_texts (v : Value) (items : List Value) (done : List Tree) (rest : List Char)
    (fuel : Nat)
    (hfuel : (Text.joined "," (Value.itemTexts (v :: items))).toList.length < fuel) :
    readItemsWith fuel ((Text.joined "," (Value.itemTexts (v :: items))).toList ++ ']' :: rest)
        done =
      some (done.reverse ++ Tree.ofItems (v :: items), rest) := by
  cases fuel with
  | zero => cases hfuel
  | succ fuel =>
      cases items with
      | nil =>
          rw [Value.itemTexts, Value.itemTexts, Text.toList_joined_singleton] at hfuel ⊢
          exact readItemsWith_closing (readTreeWith_text v
            (isDelimited_cons (.inr (.inl rfl)) rest) fuel (Nat.le_of_lt_succ hfuel)) done
      | cons w items =>
          have hjoined : (Text.joined "," (Value.itemTexts (v :: w :: items))).toList =
              v.text.toList ++ ',' :: (Text.joined "," (Value.itemTexts (w :: items))).toList :=
            Text.toList_joined_cons_cons ..
          rw [hjoined, List.length_append, List.length_cons] at hfuel
          rw [hjoined, List.append_assoc, List.cons_append, readItemsWith_comma
            (readTreeWith_text v (isDelimited_cons (.inl rfl) _) fuel (by omega)),
            readItemsWith_texts w items _ rest fuel (by omega)]
          simp [Tree.ofItems]
termination_by fuel
decreasing_by all_goals omega

theorem readMembersWith_texts (key : String) (v : Value) (members : List (String × Value))
    (done : List (Option String × Tree)) (rest : List Char) (fuel : Nat)
    (hfuel : (Text.joined "," (Value.memberTexts ((key, v) :: members))).toList.length < fuel) :
    readMembersWith fuel
        ((Text.joined "," (Value.memberTexts ((key, v) :: members))).toList ++ '\x7d' :: rest)
        done =
      some (done.reverse ++ Tree.ofMembers ((key, v) :: members), rest) := by
  cases fuel with
  | zero => cases hfuel
  | succ fuel =>
      have hmember : (quoted key ++ ":" ++ v.text).toList =
          (quoted key).toList ++ ':' :: v.text.toList := by simp [String.toList_append]
      cases members with
      | nil =>
          rw [Value.memberTexts, Value.memberTexts, Text.toList_joined_singleton, hmember,
            List.length_append, List.length_cons] at hfuel
          rw [Value.memberTexts, Value.memberTexts, Text.toList_joined_singleton, hmember,
            List.append_assoc, List.cons_append]
          exact readMembersWith_closing (readTreeWith_text v
            (isDelimited_cons (.inr (.inr rfl)) rest) fuel (by omega)) key done
      | cons next members =>
          obtain ⟨nextKey, w⟩ := next
          have hjoined : (Text.joined ","
                (Value.memberTexts ((key, v) :: (nextKey, w) :: members))).toList =
              (quoted key).toList ++ ':' :: (v.text.toList ++ ',' ::
                (Text.joined "," (Value.memberTexts ((nextKey, w) :: members))).toList) := by
            rw [← List.cons_append, ← List.append_assoc, ← hmember]
            exact Text.toList_joined_cons_cons ..
          rw [hjoined, List.length_append, List.length_cons, List.length_append,
            List.length_cons] at hfuel
          rw [hjoined, List.append_assoc, List.cons_append, List.append_assoc, List.cons_append,
            readMembersWith_comma
              (readTreeWith_text v (isDelimited_cons (.inl rfl) _) fuel (by omega)),
            readMembersWith_texts nextKey w members _ rest fuel (by omega)]
          simp [Tree.ofMembers]
termination_by fuel
decreasing_by all_goals omega
end

/-- The text of a value is the text of its tree. -/
theorem readTree?_text (v : Value) : readTree? v.text = some (Tree.ofValue v) := by
  have hread := readTreeWith_text v isDelimited_nil (v.text.toList.length + 1) (Nat.le_succ _)
  rw [List.append_nil] at hread
  unfold readTree? readTree
  rw [hread]
  rfl

end EntityService.Json
