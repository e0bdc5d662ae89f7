import EntityService.Number.Layout
import EntityService.Number.Numeral
import EntityService.Text.Blank
import Mathlib.Data.List.TakeDrop

/-!
# Written numbers are read

The text that a double is written as is a text that is read as a double.

## Main definitions

* `IsDigits`, `IsFraction`, `IsExponent` — the parts of a decimal
* `IsDecimal` — a decimal as it is written

## Main results

* `IsDecimal.isSome_readDecimal?` — a decimal is read
* `isSome_readDouble?_of_isDecimal` — also after a minus, between white space
* `Layout.isDecimal_text` — a double that is not infinite is written as a decimal
* `readDouble?_of_bracket` — no text that begins with a bracket is read as a double

## Design notes

Only the shape of the text matters here, not which number it denotes: whether a text is read as a
double decides if it is compared as one.
-/

namespace EntityService.Number

/-- Decimal digits, at least one. -/
def IsDigits (cs : List Char) : Prop := cs ≠ [] ∧ cs.all isDigit

/-- The point of a decimal with the digits after it, or nothing. -/
def IsFraction (cs : List Char) : Prop := cs = [] ∨ ∃ digits, IsDigits digits ∧ cs = '.' :: digits

/-- The exponent of a decimal with its sign, or nothing. -/
def IsExponent (cs : List Char) : Prop :=
  cs = [] ∨ ∃ sign digits, IsDigits digits ∧ (sign = '-' ∨ sign = '+') ∧ cs = 'e' :: sign :: digits

/-- A decimal as it is written: digits, which a fraction and an exponent may follow. -/
def IsDecimal (cs : List Char) : Prop :=
  ∃ whole fraction exponent, cs = whole ++ (fraction ++ exponent) ∧ IsDigits whole ∧
    IsFraction fraction ∧ IsExponent exponent

/-! ### Digits -/

theorem isDigits_toDigits (n : Nat) : IsDigits (Nat.toDigits 10 n) :=
  ⟨Nat.toDigits_ne_nil, List.all_eq_true.mpr fun _ => isDigit_of_mem_toDigits⟩

theorem isDecimal_toDigits (n : Nat) : IsDecimal (Nat.toDigits 10 n) :=
  ⟨_, [], [], by simp, isDigits_toDigits n, .inl rfl, .inl rfl⟩

/-! ### Reading what is written -/

/-- Digits are cut off as far as they go. -/
theorem span_isDigit {digits rest : List Char} (h : digits.all isDigit)
    (hrest : ∀ c ∈ rest.head?, isDigit c = false) :
    (digits ++ rest).span isDigit = (digits, rest) := by
  have hall : ∀ c ∈ digits, isDigit c := List.all_eq_true.mp h
  rw [List.span_eq_takeWhile_dropWhile, List.takeWhile_append_of_pos hall,
    List.dropWhile_append_of_pos hall]
  cases rest with
  | nil => simp
  | cons c rest =>
      have hc : ¬isDigit c := by simp [hrest c rfl]
      rw [List.takeWhile_cons_of_neg hc, List.dropWhile_cons_of_neg hc, List.append_nil]

theorem IsDigits.isSome_readDigits? {cs : List Char} (h : IsDigits cs) :
    (readDigits? cs).isSome := by
  unfold readDigits?
  rw [if_pos ⟨h.1, h.2⟩]
  rfl

/-- An exponent is read, and it begins with neither a digit nor a point. -/
theorem IsExponent.isSome_readExponent? {cs : List Char} (h : IsExponent cs) :
    (readExponent? cs).isSome ∧ ∀ c ∈ cs.head?, isDigit c = false ∧ c ≠ '.' := by
  rcases h with rfl | ⟨sign, digits, hdigits, hsign, rfl⟩
  · exact ⟨rfl, nofun⟩
  · refine ⟨?_, ?_⟩
    · rcases hsign with rfl | rfl <;>
        simpa [readExponent?, cutSign] using hdigits.isSome_readDigits?
    · rintro c ⟨⟩
      decide

theorem IsDecimal.isSome_readDecimal? {cs : List Char} (h : IsDecimal cs) (negative : Bool) :
    (readDecimal? negative cs).isSome := by
  obtain ⟨whole, fraction, exponent, rfl, hwhole, hfraction, hexponent⟩ := h
  obtain ⟨hread, hhead⟩ := hexponent.isSome_readExponent?
  rcases hfraction with rfl | ⟨digits, hdigits, rfl⟩
  · have hspan : (whole ++ exponent).span isDigit = (whole, exponent) :=
      span_isDigit hwhole.2 fun c hc => (hhead c hc).1
    unfold readDecimal?
    simp only [List.nil_append, hspan]
    split
    next => exact absurd rfl (hhead '.' rfl).2
    next => simpa [hwhole.1] using hread
  · have hspan : (whole ++ '.' :: (digits ++ exponent)).span isDigit =
        (whole, '.' :: (digits ++ exponent)) := span_isDigit hwhole.2 (by rintro c ⟨⟩; decide)
    have hfraction : (digits ++ exponent).span isDigit = (digits, exponent) :=
      span_isDigit hdigits.2 fun c hc => (hhead c hc).1
    unfold readDecimal?
    simp only [List.cons_append, hspan, hfraction]
    simpa [hwhole.1] using hread

theorem isBlank_of_isDigit {c : Char} (h : isDigit c) : Text.isBlank c = false := by
  simp only [isDigit, Bool.and_eq_true, decide_eq_true_eq, Char.le_def, UInt32.le_iff_toNat_le] at h
  have hbounds : 48 ≤ c.toNat ∧ c.toNat ≤ 57 := h
  simp [Text.isBlank]
  omega

/-- A decimal holds no white space. -/
theorem IsDecimal.not_blank {cs : List Char} (h : IsDecimal cs) :
    ∀ c ∈ cs, Text.isBlank c = false := by
  have hdigits : ∀ {cs}, IsDigits cs → ∀ c ∈ cs, Text.isBlank c = false :=
    fun hcs c hc => isBlank_of_isDigit (List.all_eq_true.mp hcs.2 c hc)
  obtain ⟨whole, fraction, exponent, rfl, hwhole, hfraction, hexponent⟩ := h
  simp only [List.forall_mem_append]
  refine ⟨hdigits hwhole, ?_, ?_⟩
  · rcases hfraction with rfl | ⟨digits, hds, rfl⟩
    · nofun
    · exact List.forall_mem_cons.mpr ⟨by decide, hdigits hds⟩
  · rcases hexponent with rfl | ⟨sign, digits, hds, hsign, rfl⟩
    · nofun
    · refine List.forall_mem_cons.mpr ⟨by decide, List.forall_mem_cons.mpr ⟨?_, hdigits hds⟩⟩
      rcases hsign with rfl | rfl <;> decide

theorem not_blank_toString (n : Int) : ∀ c ∈ (toString n).toList, Text.isBlank c = false := by
  cases n with
  | ofNat n =>
      rw [toList_toString_ofNat]
      exact (isDecimal_toDigits n).not_blank
  | negSucc n =>
      rw [toList_toString_negSucc]
      exact List.forall_mem_cons.mpr ⟨by decide, (isDecimal_toDigits (n + 1)).not_blank⟩

/-- A text that is a decimal, maybe after a minus, is read as a double. -/
theorem isSome_readDouble?_of_isDecimal {s : String} {cs : List Char} (h : IsDecimal cs)
    (hs : s.toList = cs ∨ s.toList = '-' :: cs) : (readDouble? (Text.trim s)).isSome := by
  have hblank : ∀ c ∈ s.toList, Text.isBlank c = false := by
    rcases hs with hs | hs <;> rw [hs]
    · exact h.not_blank
    · exact List.forall_mem_cons.mpr ⟨by decide, h.not_blank⟩
  have hcut : (cutSign s.toList).2 = cs := by
    rcases hs with hs | hs <;> rw [hs]
    · obtain ⟨whole, fraction, exponent, rfl, hwhole, -, -⟩ := h
      cases whole with
      | nil => exact absurd rfl hwhole.1
      | cons c rest =>
          have hc : isDigit c := List.all_eq_true.mp hwhole.2 c List.mem_cons_self
          exact congrArg Prod.snd (cutSign_of_isDigit hc _)
    · rfl
  rw [Text.trim_of_not_blank hblank, readDouble?]
  have hread := h.isSome_readDecimal? (cutSign s.toList).1
  rw [← hcut] at hread
  dsimp only
  split
  · rfl
  · split
    · rfl
    · exact hread

/-! ### What is not read -/

theorem trimChars_cons {c : Char} (h : Text.isBlank c = false) (rest : List Char) :
    ∃ rest', Text.trimChars (c :: rest) = c :: rest' := by
  refine ⟨(rest.reverse.dropWhile Text.isBlank).reverse, ?_⟩
  rw [Text.trimChars, List.dropWhile_cons_of_neg (by simp [h]), Text.dropBlankEnd,
    List.reverse_cons, List.dropWhile_append]
  have hlast : [c].dropWhile Text.isBlank = [c] := by simp [h]
  split
  next hempty =>
    rw [List.isEmpty_iff] at hempty
    rw [hlast, hempty]
    rfl
  next => simp

/-- The text of an array or of an object is no number. -/
theorem readDouble?_of_bracket {s : String} {c : Char} {rest : List Char}
    (hc : c = '[' ∨ c = '\x7b') (hs : s.toList = c :: rest) : readDouble? (Text.trim s) = none := by
  obtain ⟨rest', htrim⟩ := trimChars_cons (c := c) (by rcases hc with rfl | rfl <;> decide) rest
  have hcut : cutSign (c :: rest') = (false, c :: rest') := by
    rcases hc with rfl | rfl <;> rfl
  have hword : ∀ word : String, word.toList.head? ≠ some c.toLower →
      lowerWord (c :: rest') ≠ word := by
    rintro word hhead rfl
    exact hhead (by simp [lowerWord])
  rw [Text.trim, hs, htrim, readDouble?, String.toList_ofList, hcut]
  dsimp only
  rw [if_neg, if_neg]
  · have hspan : (c :: rest').span isDigit = ([], c :: rest') :=
      @span_isDigit [] _ rfl (by rcases hc with rfl | rfl <;> rintro d ⟨⟩ <;> decide)
    unfold readDecimal?
    rw [hspan]
    rcases hc with rfl | rfl <;> rfl
  · exact hword _ (by rcases hc with rfl | rfl <;> decide)
  · rw [not_or]
    exact ⟨hword _ (by rcases hc with rfl | rfl <;> decide),
      hword _ (by rcases hc with rfl | rfl <;> decide)⟩

/-! ### Writing -/

theorem isDigits_zero : IsDigits ['0'] := ⟨by decide, by decide⟩

theorem all_isDigit_zeros (n : Nat) : (List.replicate n '0').all isDigit :=
  List.all_eq_true.mpr fun _ hc => List.eq_of_mem_replicate hc ▸ by decide

theorem IsDigits.append_left {cs : List Char} (h : IsDigits cs) {more : List Char}
    (hmore : more.all isDigit) : IsDigits (cs ++ more) :=
  ⟨by simp [h.1], by rw [List.all_append, h.2, hmore]; rfl⟩

theorem IsDigits.append_right {cs : List Char} (h : IsDigits cs) {more : List Char}
    (hmore : more.all isDigit) : IsDigits (more ++ cs) :=
  ⟨by simp [h.1], by rw [List.all_append, h.2, hmore]; rfl⟩

namespace Layout

theorem isDecimal_positional {digits : List Char} (h : IsDigits digits) (first : Int) :
    IsDecimal (exchange.positional digits first).toList := by
  unfold positional
  split
  · refine ⟨['0'], '.' :: (List.replicate (-first - 1).toNat '0' ++ digits), [], ?_, isDigits_zero,
      .inr ⟨_, h.append_right (all_isDigit_zeros _), rfl⟩, .inl rfl⟩
    simp [zeros, String.toList_append]
  · dsimp only
    split
    · refine ⟨digits ++ List.replicate (first.toNat + 1 - digits.length) '0', ['.', '0'], [], ?_,
        h.append_left (all_isDigit_zeros _), .inr ⟨['0'], isDigits_zero, rfl⟩, .inl rfl⟩
      simp [zeros, String.toList_append, exchange]
    · next hlong =>
      have hparts : (digits.take (first.toNat + 1)).all isDigit ∧
          (digits.drop (first.toNat + 1)).all isDigit := by
        rw [← Bool.and_eq_true, ← List.all_append, List.take_append_drop]
        exact h.2
      refine ⟨digits.take (first.toNat + 1), '.' :: digits.drop (first.toNat + 1), [], ?_,
        ⟨?_, hparts.1⟩, .inr ⟨_, ⟨?_, hparts.2⟩, rfl⟩, .inl rfl⟩
      · simp [String.toList_append]
      · simp [h.1]
      · rw [ne_eq, List.drop_eq_nil_iff]
        exact hlong

theorem isDecimal_scientificText {digits : List Char} (h : IsDigits digits) (first : Int) :
    IsDecimal (scientificText digits first).toList := by
  have hparts : (digits.take 1).all isDigit ∧ (digits.drop 1).all isDigit := by
    rw [← Bool.and_eq_true, ← List.all_append, List.take_append_drop]
    exact h.2
  have hexponent : IsExponent
      ('e' :: (if first < 0 then '-' else '+') :: Nat.toDigits 10 first.natAbs) := by
    refine .inr ⟨_, _, isDigits_toDigits _, ?_, rfl⟩
    split
    · exact .inl rfl
    · exact .inr rfl
  refine ⟨digits.take 1, if digits.length ≤ 1 then [] else '.' :: digits.drop 1, _, ?_,
    ⟨by simp [h.1], hparts.1⟩, ?_, hexponent⟩
  · unfold scientificText
    simp only [String.toList_append]
    split <;> split <;> simp
  · split
    · exact .inl rfl
    · next hlong =>
      refine .inr ⟨_, ⟨?_, hparts.2⟩, rfl⟩
      rw [ne_eq, List.drop_eq_nil_iff]
      exact hlong

/-- The text of a double that is not infinite is a decimal, maybe after a minus. -/
theorem isDecimal_text {x : Double} (h : x.isFinite) :
    ∃ cs, IsDecimal cs ∧
      ((exchange.text x).toList = cs ∨ (exchange.text x).toList = '-' :: cs) := by
  have hnan : x.isNaN = false := Double.isNaN_of_isFinite h
  have hunsigned : IsDecimal (exchange.unsignedText x).toList := by
    unfold unsignedText
    rw [hnan, h]
    simp only [Bool.false_eq_true, if_false, Bool.not_true]
    split
    · exact ⟨['0'], ['.', '0'], [], by decide, isDigits_zero, .inr ⟨['0'], isDigits_zero, rfl⟩,
        .inl rfl⟩
    · split
      · exact isDecimal_scientificText (isDigits_toDigits _) _
      · exact isDecimal_positional (isDigits_toDigits _) _
  refine ⟨_, hunsigned, ?_⟩
  unfold text
  rw [hnan]
  cases x.negative <;> simp [String.toList_append]

end Layout

end EntityService.Number
