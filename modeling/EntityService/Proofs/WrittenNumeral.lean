import EntityService.Json.Reader
import EntityService.Json.Writer
import EntityService.Proofs.WrittenNumber

/-!
# Numerals are read as they are spelled

The text of an integer or of a double, read as a numeral in front of what may follow a value.

## Main definitions

* `Numeral.spelling` — the characters of a numeral
* `Numeral.IsProper` — the numerals that a text can hold
* `IsDelimited` — what may follow a value in a text

## Main results

* `readNumeral_spelling` — a proper numeral is read as it is spelled
* `Tree.isProper_numeralOfInt`, `Tree.isProper_numeralOfDouble` — numbers are written properly
* `Tree.spelling_numeralOfInt`, `Tree.spelling_numeralOfDouble` — the numeral of a number is spelled
  as the number is written

## Design notes

A numeral is read only if no zero stands in front of other digits.  For doubles this is a fact about
their shortest decimals: a double other than zero has digits other than zero, since its interval of
rounding does not reach down to zero.
-/

namespace EntityService

open EntityService.Number

namespace Number

/-! ### First digits -/

theorem digitChar_eq_zero : ∀ n < 10, Nat.digitChar n = '0' → n = 0 := by decide

/-- No number but zero is written with a zero in front. -/
theorem eq_zero_of_head?_toDigits {n : Nat} (h : (Nat.toDigits 10 n).head? = some '0') : n = 0 := by
  induction n using Nat.strongRecOn with
  | ind n ih =>
      rw [Nat.toDigits_eq_if (by decide)] at h
      split at h
      · next hlt => exact digitChar_eq_zero n hlt (Option.some.inj h)
      · next hge =>
          rw [List.head?_append, Option.or_of_isSome (by simp [Nat.toDigits_ne_nil])] at h
          have hzero := ih (n / 10) (by omega) h
          omega

namespace Rounding

variable {r : Rounding}

theorem digits_ne_zero_of_contains (hlow : 0 < r.low) {d : Decimal} (h : r.contains d) :
    d.digits ≠ 0 := by
  intro hzero
  have hpoint : r.scaledPoint d = 0 := by simp [scaledPoint, hzero]
  have hbound : 0 < scaledBound r.low d := Nat.mul_pos hlow (Nat.pow_pos (by decide))
  unfold contains at h
  rw [hpoint] at h
  split at h
  · simp only [Bool.and_eq_true, decide_eq_true_eq] at h
    omega
  · simp at h

/-- A neighbour lies in the interval. -/
theorem contains_of_neighbour? {e : Int} {d : Decimal} (h : r.neighbour? e = some d) :
    r.contains d := by
  unfold neighbour? at h
  dsimp only at h
  split at h
  · cases h
  · next hbelow _ => exact Option.some.inj h ▸ hbelow
  · next habove => exact Option.some.inj h ▸ habove
  · next hbelow habove =>
      split_ifs at h
      · exact Option.some.inj h ▸ hbelow
      · exact Option.some.inj h ▸ habove
      · exact Option.some.inj h ▸ hbelow
      · exact Option.some.inj h ▸ habove

theorem contains_of_firstHit {steps : List Int} {d : Decimal} (h : r.firstHit steps = some d) :
    r.contains d := by
  induction steps with
  | nil => cases h
  | cons e rest ih =>
      rcases Option.or_eq_some_iff.mp h with hfirst | ⟨-, hrest⟩
      · exact contains_of_neighbour? hfirst
      · exact ih hrest

end Rounding

theorem Decimal.withoutZeros_digits_ne_zero {d : Decimal} (h : d.digits ≠ 0) (fuel : Nat) :
    (d.withoutZeros fuel).digits ≠ 0 := by
  induction fuel generalizing d with
  | zero => exact h
  | succ fuel ih =>
      unfold withoutZeros
      split
      · next hzero =>
          refine ih ?_
          rw [beq_iff_eq] at hzero
          show d.digits / 10 ≠ 0
          omega
      · exact h

theorem Rounding.low_ofDouble_pos {x : Double} (h : x.magnitude ≠ 0) : 0 < (ofDouble x).low := by
  have hsignificand : 0 < x.significand := by
    unfold Double.significand
    split
    · exact Nat.pos_of_ne_zero h
    · exact Nat.add_pos_left (by decide) _
  refine Nat.mul_pos ?_ (Nat.pow_pos (by decide))
  split <;> omega

/-- The shortest decimal of a double that is not zero has digits, or it is not found at all. -/
theorem shortest_digits {x : Double} (h : x.magnitude ≠ 0) :
    (shortest x).digits ≠ 0 ∨ shortest x = ⟨0, 0⟩ := by
  unfold shortest
  dsimp only
  split
  · next d hd =>
      exact .inl (Decimal.withoutZeros_digits_ne_zero (Rounding.digits_ne_zero_of_contains
        (Rounding.low_ofDouble_pos h) (Rounding.contains_of_firstHit hd)) 20)
  · exact .inr rfl

end Number

namespace Json

namespace Numeral

/-- An exponent as it is spelled. -/
def exponentSpelling : Option (Bool × List Char) → List Char
  | none => []
  | some (negative, digits) => 'e' :: (if negative then '-' else '+') :: digits

/-- The digits after a point as they are spelled, with the point. -/
def fractionSpelling (digits : List Char) : List Char :=
  if digits = [] then [] else '.' :: digits

/-- The characters of a numeral without its sign. -/
def unsignedSpelling (n : Numeral) : List Char :=
  n.whole ++ (fractionSpelling n.fraction ++ exponentSpelling n.exponent)

/-- The characters of a numeral. -/
def spelling (n : Numeral) : List Char :=
  (if n.negative then ['-'] else []) ++ n.unsignedSpelling

/-- A numeral has digits where they have to be, and no zero in front of other digits. -/
structure IsProper (n : Numeral) : Prop where
  whole : IsDigits n.whole
  leading : n.whole.head? = some '0' → n.whole = ['0']
  fraction : n.fraction.all isDigit
  exponent : ∀ e ∈ n.exponent, IsDigits e.2

end Numeral

/-- A text ends here, or goes on with what stands after a value. -/
def IsDelimited (rest : List Char) : Prop :=
  ∀ c ∈ rest.head?, c = ',' ∨ c = ']' ∨ c = '\x7d'

theorem isDelimited_nil : IsDelimited [] := nofun

theorem isDelimited_cons {c : Char} (h : c = ',' ∨ c = ']' ∨ c = '\x7d') (rest : List Char) :
    IsDelimited (c :: rest) := by
  rintro d ⟨⟩
  exact h

theorem IsDelimited.not_isDigit {rest : List Char} (h : IsDelimited rest) :
    ∀ c ∈ rest.head?, isDigit c = false := by
  intro c hc
  rcases h c hc with rfl | rfl | rfl <;> decide

section Numbers

variable {rest : List Char}

theorem readExponentPart_spelling {exponent : Option (Bool × List Char)}
    (h : ∀ e ∈ exponent, IsDigits e.2) (hrest : IsDelimited rest) :
    readExponentPart (Numeral.exponentSpelling exponent ++ rest) = some (exponent, rest) := by
  cases exponent with
  | none =>
      cases rest with
      | nil => rfl
      | cons c rest =>
          have hc : ¬(c = 'e' ∨ c = 'E') := by
            rcases hrest c rfl with rfl | rfl | rfl <;> decide
          show readExponentPart (c :: rest) = _
          rw [readExponentPart, if_neg hc]
  | some e =>
      obtain ⟨negative, digits⟩ := e
      have hdigits : IsDigits digits := h _ rfl
      have hcut : cutSign ((if negative then '-' else '+') :: (digits ++ rest)) =
          (negative, digits ++ rest) := by cases negative <;> rfl
      show readExponentPart ('e' :: (if negative then '-' else '+') :: (digits ++ rest)) = _
      rw [readExponentPart, if_pos (.inl rfl), hcut]
      dsimp only
      rw [span_isDigit hdigits.2 hrest.not_isDigit]
      dsimp only
      rw [if_neg hdigits.1]

theorem not_isDigit_exponentSpelling (exponent : Option (Bool × List Char))
    (hrest : IsDelimited rest) :
    ∀ c ∈ (Numeral.exponentSpelling exponent ++ rest).head?, isDigit c = false ∧ c ≠ '.' := by
  cases exponent with
  | none =>
      intro c hc
      rcases hrest c hc with rfl | rfl | rfl <;> decide
  | some e =>
      rintro c ⟨⟩
      decide

theorem readFraction_spelling {fraction after : List Char} (h : fraction.all isDigit)
    (hafter : ∀ c ∈ after.head?, isDigit c = false ∧ c ≠ '.') :
    readFraction (Numeral.fractionSpelling fraction ++ after) = some (fraction, after) := by
  unfold Numeral.fractionSpelling
  split
  · next hnone =>
      subst hnone
      cases after with
      | nil => rfl
      | cons c after =>
          unfold readFraction
          split
          · next heq =>
              cases heq
              exact absurd rfl (hafter '.' rfl).2
          · rfl
  · next hsome =>
      show readFraction ('.' :: (fraction ++ after)) = _
      rw [readFraction, span_isDigit h fun c hc => (hafter c hc).1]
      dsimp only
      rw [if_neg hsome]

theorem readWhole_digits {whole after : List Char} (h : IsDigits whole)
    (hleading : whole.head? = some '0' → whole = ['0'])
    (hafter : ∀ c ∈ after.head?, isDigit c = false) :
    readWhole (whole ++ after) = some (whole, after) := by
  obtain ⟨hne, hdigits⟩ := h
  cases whole with
  | nil => exact absurd rfl hne
  | cons c digits =>
      have hspan := span_isDigit hdigits hafter
      rw [List.cons_append] at hspan ⊢
      rw [readWhole, hspan]
      dsimp only
      rw [if_neg]
      rintro (hnil | ⟨rfl, hlong⟩)
      · exact hne hnil
      · exact hlong (hleading rfl)

theorem not_isDigit_fractionSpelling (fraction : List Char) {after : List Char}
    (hafter : ∀ c ∈ after.head?, isDigit c = false) :
    ∀ c ∈ (Numeral.fractionSpelling fraction ++ after).head?, isDigit c = false := by
  unfold Numeral.fractionSpelling
  split
  · exact hafter
  · rintro c ⟨⟩
    decide

/-- A numeral is read as it is spelled. -/
theorem readNumeral_spelling {n : Numeral} (h : n.IsProper) (hrest : IsDelimited rest) :
    readNumeral (n.spelling ++ rest) = some (n, rest) := by
  have hexponent := readExponentPart_spelling h.exponent hrest
  have hafter := not_isDigit_exponentSpelling n.exponent hrest
  have hfraction := readFraction_spelling h.fraction hafter
  have hwhole := readWhole_digits h.whole h.leading
    (not_isDigit_fractionSpelling n.fraction fun c hc => (hafter c hc).1)
  have hbody : n.spelling ++ rest = (if n.negative then ['-'] else []) ++ (n.whole ++
      (Numeral.fractionSpelling n.fraction ++ (Numeral.exponentSpelling n.exponent ++ rest))) := by
    simp [Numeral.spelling, Numeral.unsignedSpelling]
  rw [hbody]
  unfold readNumeral
  cases hnegative : n.negative with
  | true =>
      simp only [if_true, List.cons_append, List.nil_append, Option.bind_eq_bind, hwhole,
        Option.bind_some, hfraction, hexponent, Option.pure_def, ← hnegative]
  | false =>
      simp only [Bool.false_eq_true, if_false, List.nil_append, Option.bind_eq_bind]
      split
      · next tail heq =>
          -- the first character is a digit and no minus
          obtain ⟨c, digits, hcons⟩ := List.exists_cons_of_ne_nil h.whole.1
          have hdigit : isDigit c := List.all_eq_true.mp h.whole.2 c (by simp [hcons])
          rw [hcons] at heq
          cases heq
          exact absurd hdigit (by decide)
      · simp only [hwhole, Option.bind_some, hfraction, hexponent, Option.pure_def, ← hnegative]

end Numbers

/-! ### Numbers that are written -/

namespace Tree

theorem isProper_of_toDigits {n : Nat} (negative : Bool) :
    Numeral.IsProper
      { negative, whole := Nat.toDigits 10 n, fraction := [], exponent := none } where
  whole := isDigits_toDigits n
  leading h := by rw [eq_zero_of_head?_toDigits h]; rfl
  fraction := rfl
  exponent := nofun

theorem isProper_numeralOfInt (n : Int) : (numeralOfInt n).IsProper := isProper_of_toDigits _

/-- An integer is spelled as it is written. -/
theorem spelling_numeralOfInt (n : Int) : (numeralOfInt n).spelling = (toString n).toList := by
  cases n with
  | ofNat n =>
      rw [toList_toString_ofNat]
      simp [numeralOfInt, Numeral.spelling, Numeral.unsignedSpelling, Numeral.fractionSpelling,
        Numeral.exponentSpelling]
  | negSucc n =>
      rw [toList_toString_negSucc]
      simp [numeralOfInt, Numeral.spelling, Numeral.unsignedSpelling, Numeral.fractionSpelling,
        Numeral.exponentSpelling]

/-- The digits of a double, and where the first of them stands. -/
theorem digits_of_shortest {x : Double} (h : x.magnitude ≠ 0) :
    (Nat.toDigits 10 (shortest x).digits).head? ≠ some '0' ∨
      Nat.toDigits 10 (shortest x).digits = ['0'] ∧ (shortest x).exponent = 0 := by
  rcases shortest_digits h with hdigits | hnone
  · exact .inl fun hhead => hdigits (eq_zero_of_head?_toDigits hhead)
  · rw [hnone]
    exact .inr ⟨rfl, rfl⟩

theorem isProper_numeralOfDouble (x : Double) : (numeralOfDouble x).IsProper := by
  unfold numeralOfDouble
  split
  · exact ⟨isDigits_zero, fun _ => rfl, rfl, nofun⟩
  · next hmagnitude =>
      have hfirst := digits_of_shortest hmagnitude
      dsimp only
      generalize hds : Nat.toDigits 10 (shortest x).digits = digits at hfirst ⊢
      have hdigits : IsDigits digits := hds ▸ isDigits_toDigits _
      generalize (shortest x).exponent = exponent at hfirst ⊢
      have hcut : ∀ n, (digits.take n).all isDigit ∧ (digits.drop n).all isDigit := fun n => by
        rw [← Bool.and_eq_true, ← List.all_append, List.take_append_drop]
        exact hdigits.2
      obtain ⟨c, more, rfl⟩ := List.exists_cons_of_ne_nil hdigits.1
      split
      · refine ⟨⟨nofun, (hcut 1).1⟩, ?_, (hcut 1).2, ?_⟩
        · intro hhead
          rw [Option.some.inj hhead]
          rfl
        · rintro _ ⟨⟩
          exact isDigits_toDigits _
      · split
        · exact ⟨isDigits_zero, fun _ => rfl,
            (hdigits.append_right (all_isDigit_zeros _)).2, nofun⟩
        · generalize hwhole : (exponent + ((c :: more).length : Nat) - 1).toNat + 1 = whole
          have hpadded : IsDigits (c :: more ++ List.replicate (whole - (c :: more).length) '0') :=
            hdigits.append_left (all_isDigit_zeros _)
          have hparts := hpadded.2
          rw [← List.take_append_drop whole (_ ++ _), List.all_append, Bool.and_eq_true] at hparts
          refine ⟨⟨?_, hparts.1⟩, ?_, ?_, nofun⟩
          · subst hwhole
            nofun
          · intro hhead
            rcases hfirst with hne | ⟨hzero, rfl⟩
            · subst hwhole
              exact absurd hhead hne
            · rw [hzero] at hwhole ⊢
              subst hwhole
              rfl
          · dsimp only
            split
            · rfl
            · exact hparts.2

theorem unsignedSpelling_scientific (digits : List Char) (first : Int) (negative : Bool) :
    Numeral.unsignedSpelling ⟨negative, digits.take 1, digits.drop 1,
      some (decide (first < 0), Nat.toDigits 10 first.natAbs)⟩ =
    (Layout.scientificText digits first).toList := by
  unfold Numeral.unsignedSpelling Layout.scientificText
  simp only [Numeral.fractionSpelling, Numeral.exponentSpelling, String.toList_append,
    toList_toString, List.drop_eq_nil_iff, decide_eq_true_eq, String.toList_ofList,
    List.append_assoc]
  split_ifs <;> simp

theorem unsignedSpelling_fractional (digits : List Char) (hdigits : digits ≠ []) {first : Int}
    (h : first < 0) (negative : Bool) :
    Numeral.unsignedSpelling ⟨negative, ['0'],
      List.replicate (-first - 1).toNat '0' ++ digits, none⟩ =
    (Layout.exchange.positional digits first).toList := by
  unfold Numeral.unsignedSpelling Layout.positional
  simp [Numeral.fractionSpelling, Numeral.exponentSpelling, Layout.zeros, h, hdigits]

theorem unsignedSpelling_whole (digits : List Char) {first : Int} (h : ¬first < 0)
    (negative : Bool) :
    let whole := first.toNat + 1
    let padded := digits ++ List.replicate (whole - digits.length) '0'
    let fraction := padded.drop whole
    Numeral.unsignedSpelling
      ⟨negative, padded.take whole, if fraction = [] then ['0'] else fraction, none⟩ =
    (Layout.exchange.positional digits first).toList := by
  unfold Numeral.unsignedSpelling Layout.positional
  dsimp only
  rw [if_neg h]
  by_cases hlong : digits.length ≤ first.toNat + 1
  · have hlength : (digits ++ List.replicate (first.toNat + 1 - digits.length) '0').length ≤
        first.toNat + 1 := by
      rw [List.length_append, List.length_replicate]
      omega
    rw [if_pos hlong, List.drop_of_length_le hlength, List.take_of_length_le hlength]
    simp [Numeral.fractionSpelling, Numeral.exponentSpelling, Layout.zeros, Layout.exchange]
  · have hnone : first.toNat + 1 - digits.length = 0 := by omega
    have hne : digits.drop (first.toNat + 1) ≠ [] := by
      rw [ne_eq, List.drop_eq_nil_iff]
      exact hlong
    simp [Numeral.fractionSpelling, Numeral.exponentSpelling, hnone, hne, if_neg hlong]

theorem unsignedSpelling_numeralOfDouble {x : Double} (h : x.isFinite) :
    (numeralOfDouble x).unsignedSpelling = (Layout.exchange.unsignedText x).toList := by
  unfold numeralOfDouble Layout.unsignedText
  rw [Double.isNaN_of_isFinite h, h, if_neg Bool.false_ne_true, Bool.not_true,
    if_neg Bool.false_ne_true]
  by_cases hmagnitude : x.magnitude = 0
  · rw [if_pos hmagnitude, if_pos hmagnitude]
    rfl
  · rw [if_neg hmagnitude, if_neg hmagnitude]
    have hdigits := (isDigits_toDigits (shortest x).digits).1
    dsimp only
    generalize Nat.toDigits 10 (shortest x).digits = digits at hdigits
    generalize (shortest x).exponent + (digits.length : Int) - 1 = first
    by_cases hscientific : Layout.exchange.scientific first
    · rw [if_pos hscientific, if_pos hscientific]
      exact unsignedSpelling_scientific ..
    · rw [if_neg hscientific, if_neg hscientific]
      split
      · next hfirst => exact unsignedSpelling_fractional _ hdigits hfirst _
      · next hfirst => exact unsignedSpelling_whole _ hfirst _

theorem negative_numeralOfDouble (x : Double) : (numeralOfDouble x).negative = x.negative := by
  unfold numeralOfDouble
  split_ifs <;> try rfl
  dsimp only
  split_ifs <;> rfl

/-- A finite double is spelled as it is written. -/
theorem spelling_numeralOfDouble {x : Double} (h : x.isFinite) :
    (numeralOfDouble x).spelling = (Layout.exchange.text x).toList := by
  rw [Numeral.spelling, negative_numeralOfDouble, unsignedSpelling_numeralOfDouble h, Layout.text,
    String.toList_append, Double.isNaN_of_isFinite h]
  cases x.negative <;> rfl

end Tree

end Json

end EntityService
