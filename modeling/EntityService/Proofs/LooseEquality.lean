import EntityService.Proofs.Trichotomy

/-!
# Loose equality

Cells are compared across the kinds of values, and a text takes part as a number when it spells one.
Which texts do so is said by a grammar; with it, the equality of cells is a partial equivalence,
which only null and the spellings of a NaN are left out of.

## Main definitions

* `IsSignOf`, `IsMantissaOf`, `IsExponentOf` — the parts of a spelling
* `SpellsDouble` — the grammar of the texts that spell doubles, with the doubles that they spell

## Main results

* `readDouble?_eq_some_iff` — a text is read as the double that it spells
* `compareCells?_swap` — two cells in the other order are compared the other way round
* `sameCell_self_iff` — the cells that are the same as themselves
* `sameCell_is_partial_equivalence` — all together

## Design notes

No part of a spelling can be taken for the next one: digits end before a point or a letter, and what
follows a sign is none.  So reading goes along the grammar, part by part, without a choice.
-/

namespace EntityService.Number

/-! ### Texts that spell doubles -/

/-- A sign that may be left out, `true` for a minus. -/
inductive IsSignOf : List Char → Bool → Prop where
  | none : IsSignOf [] false
  | plus : IsSignOf ['+'] false
  | minus : IsSignOf ['-'] true

/-- Digits that may have a point before, among or after them: the digits, and how many of them stand
after the point. -/
inductive IsMantissaOf : List Char → List Char → Nat → Prop where
  | whole {digits : List Char} (h : IsDigits digits) : IsMantissaOf digits digits 0
  | point {whole fraction : List Char} (hwhole : whole.all isDigit)
      (hfraction : fraction.all isDigit) (hne : whole ++ fraction ≠ []) :
      IsMantissaOf (whole ++ '.' :: fraction) (whole ++ fraction) fraction.length

/-- An exponent that may be left out. -/
inductive IsExponentOf : List Char → Int → Prop where
  | none : IsExponentOf [] 0
  | marked {mark : Char} {sign digits : List Char} {negative : Bool}
      (hmark : mark = 'e' ∨ mark = 'E') (hsign : IsSignOf sign negative) (h : IsDigits digits) :
      IsExponentOf (mark :: (sign ++ digits))
        (if negative then -(digitsValue digits : Int) else digitsValue digits)

/-- A text spells a double: a sign, and then a word for an infinity or a NaN in letters of any case,
or a decimal, which spells the double nearest to it. -/
inductive SpellsDouble : List Char → Double → Prop where
  | infinity {sign word : List Char} {negative : Bool} (hsign : IsSignOf sign negative)
      (hword : lowerWord word = "inf" ∨ lowerWord word = "infinity") :
      SpellsDouble (sign ++ word) (.infinite negative)
  | nan {sign word : List Char} {negative : Bool} (hsign : IsSignOf sign negative)
      (hword : lowerWord word = "nan") : SpellsDouble (sign ++ word) .nan
  | decimal {sign mantissa digits exponent : List Char} {negative : Bool} {places : Nat} {e : Int}
      (hsign : IsSignOf sign negative) (hmantissa : IsMantissaOf mantissa digits places)
      (hexponent : IsExponentOf exponent e) :
      SpellsDouble (sign ++ (mantissa ++ exponent))
        (.ofDecimal negative (digitsValue digits) (e - places))

/-! ### Signs and exponents -/

/-- What is cut off is a sign. -/
theorem exists_isSignOf_cutSign (cs : List Char) :
    ∃ sign, IsSignOf sign (cutSign cs).1 ∧ cs = sign ++ (cutSign cs).2 := by
  unfold cutSign
  split
  · exact ⟨_, .minus, rfl⟩
  · exact ⟨_, .plus, rfl⟩
  · exact ⟨_, .none, rfl⟩

/-- A sign is cut off from what does not begin with one. -/
theorem IsSignOf.cutSign_append {sign rest : List Char} {negative : Bool}
    (h : IsSignOf sign negative) (hrest : ∀ c ∈ rest.head?, c ≠ '-' ∧ c ≠ '+') :
    cutSign (sign ++ rest) = (negative, rest) := by
  cases h with
  | none =>
      rw [List.nil_append]
      unfold cutSign
      split
      · exact absurd rfl (hrest '-' rfl).1
      · exact absurd rfl (hrest '+' rfl).2
      · rfl
  | plus => rfl
  | minus => rfl

/-- A digit is no sign, and no letter in any case. -/
theorem of_isDigit {c : Char} (h : isDigit c) :
    (c ≠ '-' ∧ c ≠ '+') ∧ c.toLower.isLower = false := by
  have hall : ∀ n < 58, 48 ≤ n → (Char.ofNat n ≠ '-' ∧ Char.ofNat n ≠ '+') ∧
      (Char.ofNat n).toLower.isLower = false := by decide
  simp only [isDigit, Bool.and_eq_true, decide_eq_true_eq, Char.le_def, UInt32.le_iff_toNat_le] at h
  have hbounds : 48 ≤ c.toNat ∧ c.toNat ≤ 57 := h
  have hforms := hall c.toNat (by omega) hbounds.1
  rwa [Char.ofNat_toNat] at hforms

theorem readDigits?_eq_some_iff {cs : List Char} {n : Nat} :
    readDigits? cs = some n ↔ IsDigits cs ∧ digitsValue cs = n := by
  unfold readDigits?
  split
  · next h => simp [IsDigits, h]
  · next h =>
      have hnone : ¬IsDigits cs := h
      simp [hnone]

/-- An exponent is read as what it is. -/
theorem readExponent?_eq_some_iff {cs : List Char} {e : Int} :
    readExponent? cs = some e ↔ IsExponentOf cs e := by
  constructor
  · intro h
    cases cs with
    | nil =>
        cases h
        exact .none
    | cons mark rest =>
        rw [readExponent?] at h
        split at h
        · next hmark =>
            obtain ⟨n, hn, rfl⟩ := Option.map_eq_some_iff.mp h
            obtain ⟨hdigits, rfl⟩ := readDigits?_eq_some_iff.mp hn
            obtain ⟨sign, hsign, hrest⟩ := exists_isSignOf_cutSign rest
            conv => arg 1; rw [hrest]
            exact .marked hmark hsign hdigits
        · cases h
  · intro h
    cases h with
    | none => rfl
    | @marked mark sign digits negative hmark hsign hdigits =>
        have hcut : cutSign (sign ++ digits) = (negative, digits) :=
          hsign.cutSign_append fun c hc =>
            (of_isDigit (List.all_eq_true.mp hdigits.2 c (List.mem_of_mem_head? hc))).1
        rw [readExponent?, if_pos hmark, hcut]
        exact Option.map_eq_some_iff.mpr
          ⟨_, readDigits?_eq_some_iff.mpr ⟨hdigits, rfl⟩, rfl⟩

/-- An exponent begins with neither a digit nor a point. -/
theorem IsExponentOf.head {cs : List Char} {e : Int} (h : IsExponentOf cs e) :
    ∀ c ∈ cs.head?, isDigit c = false ∧ c ≠ '.' := by
  cases h with
  | none => exact nofun
  | marked hmark _ _ =>
      rintro c ⟨⟩
      rcases hmark with rfl | rfl <;> decide

/-! ### Decimals -/

/-- A decimal begins with a digit or a point. -/
theorem IsMantissaOf.head {mantissa digits : List Char} {places : Nat}
    (h : IsMantissaOf mantissa digits places) (exponent : List Char) :
    ∃ c rest, mantissa ++ exponent = c :: rest ∧ (isDigit c ∨ c = '.') := by
  have hdigits {cs : List Char} (hcs : cs.all isDigit) (rest : List Char) (hne : cs ≠ []) :
      ∃ c rest', cs ++ rest = c :: rest' ∧ (isDigit c ∨ c = '.') := by
    obtain ⟨c, cs, rfl⟩ := List.exists_cons_of_ne_nil hne
    exact ⟨c, cs ++ rest, rfl, .inl (List.all_eq_true.mp hcs c List.mem_cons_self)⟩
  cases h with
  | whole h => exact hdigits h.2 exponent h.1
  | @point whole fraction hwhole _ _ =>
      by_cases hnone : whole = []
      · subst hnone
        exact ⟨'.', fraction ++ exponent, rfl, .inr rfl⟩
      · rw [List.append_assoc]
        exact hdigits hwhole _ hnone

/-- A decimal is read as the double nearest to it. -/
theorem readDecimal?_append {mantissa digits exponent : List Char} {places : Nat} {e : Int}
    (hmantissa : IsMantissaOf mantissa digits places) (hexponent : IsExponentOf exponent e)
    (negative : Bool) :
    readDecimal? negative (mantissa ++ exponent) =
      some (.ofDecimal negative (digitsValue digits) (e - places)) := by
  have hread := readExponent?_eq_some_iff.mpr hexponent
  have hhead := hexponent.head
  cases hmantissa with
  | whole h =>
      have hspan : (mantissa ++ exponent).span isDigit = (mantissa, exponent) :=
        span_isDigit h.2 fun c hc => (hhead c hc).1
      unfold readDecimal?
      simp only [hspan]
      split
      next => exact absurd rfl (hhead '.' rfl).2
      next => simp [h.1, hread]
  | @point whole fraction hwhole hfraction hne =>
      have hspan : (whole ++ '.' :: (fraction ++ exponent)).span isDigit =
          (whole, '.' :: (fraction ++ exponent)) := span_isDigit hwhole (by rintro c ⟨⟩; decide)
      have hrest : (fraction ++ exponent).span isDigit = (fraction, exponent) :=
        span_isDigit hfraction fun c hc => (hhead c hc).1
      have hsome : ¬(whole = [] ∧ fraction = []) := by simpa using hne
      rw [List.append_assoc, List.cons_append]
      unfold readDecimal?
      simp only [hspan, hrest]
      rw [if_neg hsome, hread]
      rfl

/-- What is read as a decimal is one. -/
theorem exists_of_readDecimal? {negative : Bool} {cs : List Char} {x : Double}
    (h : readDecimal? negative cs = some x) :
    ∃ mantissa digits exponent places e, cs = mantissa ++ exponent ∧
      IsMantissaOf mantissa digits places ∧ IsExponentOf exponent e ∧
      x = .ofDecimal negative (digitsValue digits) (e - places) := by
  have hall (cs : List Char) : (cs.takeWhile isDigit).all isDigit :=
    List.all_eq_true.mpr fun _ hc => (List.all_eq_true.mp List.all_takeWhile) _ hc
  have hsplit (cs : List Char) : cs = cs.takeWhile isDigit ++ cs.dropWhile isDigit :=
    List.takeWhile_append_dropWhile.symm
  unfold readDecimal? at h
  simp only [List.span_eq_takeWhile_dropWhile] at h
  split at h
  · next rest hrest =>
      split at h
      · cases h
      · next hsome =>
          obtain ⟨e, he, rfl⟩ := Option.map_eq_some_iff.mp h
          refine ⟨_, _, _, _, e, ?_, .point (hall cs) (hall rest) (by simpa using hsome),
            readExponent?_eq_some_iff.mp he, rfl⟩
          rw [List.append_assoc, List.cons_append, ← hsplit rest, ← hrest, ← hsplit cs]
  · split at h
    · cases h
    · next hsome =>
        obtain ⟨e, he, rfl⟩ := Option.map_eq_some_iff.mp h
        have hne : cs.takeWhile isDigit ≠ [] := by simpa using hsome
        refine ⟨_, _, _, _, e, hsplit cs, .whole ⟨hne, hall cs⟩,
          readExponent?_eq_some_iff.mp he, ?_⟩
        rw [List.append_nil]
        rfl

/-- What a decimal begins with is no sign, and not the beginning of a word. -/
theorem of_head {c : Char} (h : isDigit c ∨ c = '.') :
    (c ≠ '-' ∧ c ≠ '+') ∧ c.toLower.isLower = false := by
  rcases h with h | rfl
  · exact of_isDigit h
  · decide

theorem lowerWord_ne {c : Char} (h : c.toLower.isLower = false) (rest : List Char) {word : String}
    (hword : word.toList.head?.any Char.isLower) : lowerWord (c :: rest) ≠ word := by
  rintro rfl
  rw [lowerWord, String.toList_ofList, List.map_cons, List.head?_cons, Option.any_some, h] at hword
  cases hword

/-- A word does not begin with a sign. -/
theorem ne_sign_of_lowerWord {cs : List Char} {word : String} (h : lowerWord cs = word)
    (hword : word.toList.head?.any Char.isLower) : ∀ c ∈ cs.head?, c ≠ '-' ∧ c ≠ '+' := by
  intro c hc
  obtain ⟨rest, rfl⟩ := List.head?_eq_some_iff.mp hc
  constructor <;>
    · rintro rfl
      exact lowerWord_ne (by decide) rest hword h

/-- A text is read as the double that it spells. -/
theorem readDouble?_eq_some_iff {s : String} {x : Double} :
    readDouble? s = some x ↔ SpellsDouble s.toList x := by
  constructor
  · intro h
    obtain ⟨sign, hsign, hsplit⟩ := exists_isSignOf_cutSign s.toList
    rw [hsplit]
    unfold readDouble? at h
    dsimp only at h
    split at h
    · next hword =>
        obtain rfl := Option.some.inj h
        exact .infinity hsign hword
    · split at h
      · next hword =>
          obtain rfl := Option.some.inj h
          exact .nan hsign hword
      · obtain ⟨_, _, _, _, _, hcut, hmantissa, hexponent, rfl⟩ := exists_of_readDecimal? h
        rw [hcut]
        exact .decimal hsign hmantissa hexponent
  · intro h
    unfold readDouble?
    generalize s.toList = cs at h ⊢
    cases h with
    | infinity hsign hword =>
        have hcut := hsign.cutSign_append <|
          hword.elim (ne_sign_of_lowerWord · (by decide)) (ne_sign_of_lowerWord · (by decide))
        simp only [hcut]
        rw [if_pos hword]
    | nan hsign hword =>
        simp only [hsign.cutSign_append (ne_sign_of_lowerWord hword (by decide)), hword]
        rfl
    | @decimal sign mantissa digits exponent negative places e hsign hmantissa hexponent =>
        obtain ⟨c, rest, hbody, hc⟩ := hmantissa.head exponent
        have hcut : cutSign (sign ++ (mantissa ++ exponent)) =
            (negative, mantissa ++ exponent) := by
          refine hsign.cutSign_append ?_
          rw [hbody]
          rintro d ⟨⟩
          exact (of_head hc).1
        have hword {word : String} (hlower : word.toList.head?.any Char.isLower) :
            lowerWord (mantissa ++ exponent) ≠ word := by
          rw [hbody]
          exact lowerWord_ne (of_head hc).2 rest hlower
        simp only [hcut]
        rw [if_neg (not_or.mpr ⟨hword (by decide), hword (by decide)⟩), if_neg (hword (by decide)),
          readDecimal?_append hmantissa hexponent]

end EntityService.Number

namespace EntityService.Store

open EntityService.Json EntityService.Number

/-! ### The order the other way round -/

/-- Two doubles in the other order are compared the other way round. -/
theorem order?_swap (x y : Double) : y.order? x = (x.order? y).map Ordering.swap := by
  unfold Double.order?
  cases x.isNaN <;> cases y.isNaN <;> simp [Int.compare_swap]

/-- Two cells in the other order are compared the other way round. -/
theorem compareCells?_swap (a b : Value) :
    compareCells? b a = (compareCells? a b).map Ordering.swap := by
  unfold compareCells?
  rw [Bool.or_comm b.isNull]
  split
  · rfl
  · cases numberOf? a with
    | none => simp [← Std.OrientedCmp.eq_swap]
    | some x =>
        cases numberOf? b with
        | none => simp [← Std.OrientedCmp.eq_swap]
        | some y => exact order?_swap x y

/-! ### Cells that are not the same as themselves -/

/-- The only NaN that is spelled is the one that the word for it spells. -/
theorem eq_nan_of_spellsDouble {cs : List Char} {x : Double} (h : SpellsDouble cs x)
    (hnan : x.isNaN) : x = .nan := by
  cases h with
  | infinity _ _ => cases hnan
  | nan _ _ => rfl
  | decimal _ _ _ =>
      rw [Double.isNaN_ofDecimal] at hnan
      cases hnan

/-- A text stands for the double that it spells between white space. -/
theorem numberOf?_string_eq_some_iff {s : String} {x : Double} :
    numberOf? (.string s) = some x ↔ SpellsDouble (Text.trim s).toList x := by
  rw [numberOf?, readDouble?_eq_some_iff]

/-- A value stands for a NaN when it is a text that spells one. -/
theorem standsForNaN_iff_spells {v : Value} (h : v.IsFinite) :
    standsForNaN v ↔ ∃ s, v = .string s ∧ SpellsDouble (Text.trim s).toList .nan := by
  constructor
  · intro hnan
    obtain ⟨s, rfl, -⟩ := (standsForNaN_iff h).mp hnan
    obtain ⟨x, hx, hxnan⟩ := (Option.any_eq_true _ _).mp hnan
    have hspells := numberOf?_string_eq_some_iff.mp hx
    rw [eq_nan_of_spellsDouble hspells hxnan] at hspells
    exact ⟨s, rfl, hspells⟩
  · rintro ⟨s, rfl, hspells⟩
    rw [standsForNaN, numberOf?_string_eq_some_iff.mpr hspells]
    rfl

/-- A cell is the same as itself unless it is null or a text that spells a NaN. -/
theorem sameCell_self_iff {v : Value} (h : v.IsFinite) :
    sameCell v v ↔
      v ≠ .null ∧ ¬∃ s, v = .string s ∧ SpellsDouble (Text.trim s).toList .nan := by
  rw [← standsForNaN_iff_spells h]
  cases hnull : v.isNull with
  | true =>
      obtain rfl := Value.eq_null_of_isNull hnull
      exact ⟨fun hsame => Bool.noConfusion hsame, fun hne => absurd rfl hne.1⟩
  | false =>
      have hne : v ≠ .null := by
        rintro rfl
        cases hnull
      have hnone := compareCells?_eq_none_iff hnull hnull
      rw [areUnordered_self] at hnone
      constructor
      · intro hsame
        refine ⟨hne, fun hnan => ?_⟩
        rw [sameCell, hnone.mpr hnan] at hsame
        cases hsame
      · rintro ⟨-, hnumber⟩
        refine sameCell_self hnull fun x hx => ?_
        simpa [standsForNaN, Option.mem_def.mp hx] using hnumber

/-! ### A partial equivalence -/

/-- Equality of cells is symmetric and transitive, and a cell is the same as itself unless it is
null or a text that spells a NaN.  More generally, two cells in the other order are compared the
other way round, or not at all both times.  A text stands for the double that it spells between
white space, and for no number if it spells none. -/
theorem sameCell_is_partial_equivalence {a b c : Value} (ha : a.IsFinite) (hb : b.IsFinite)
    (hc : c.IsFinite) :
    (sameCell a b → sameCell b a) ∧
      (sameCell a b → sameCell b c → sameCell a c) ∧
      (sameCell a a ↔
        a ≠ .null ∧ ¬∃ s, a = .string s ∧ SpellsDouble (Text.trim s).toList .nan) ∧
      compareCells? b a = (compareCells? a b).map Ordering.swap ∧
      ∀ s x, numberOf? (.string s) = some x ↔ SpellsDouble (Text.trim s).toList x :=
  ⟨(sameCell_comm ha hb).mp, sameCell_trans ha hb hc, sameCell_self_iff ha, compareCells?_swap a b,
    fun _ _ => numberOf?_string_eq_some_iff⟩

/-- Of a number and two texts that spell it, of which the first and the last are the same because
both are the same as the one between; and of a NaN with a sign, which is not the same as itself. -/
theorem sameCell_is_partial_equivalence_prices :
    let number : Value := .ofInt 12
    let spelled : Value := .string " +1.2e1 "
    let plain : Value := .string "12."
    let nan : Value := .string " -NaN"
    (sameCell number spelled ∧ sameCell spelled number) ∧
      (sameCell spelled plain ∧ sameCell number plain) ∧
      SpellsDouble (Text.trim " -NaN").toList .nan ∧ ¬sameCell nan nan ∧
      compareCells? number nan = (compareCells? nan number).map Ordering.swap := by
  intro number spelled plain nan
  have hfirst : sameCell number spelled := by decide +kernel
  have hsecond : sameCell spelled plain := by decide +kernel
  obtain ⟨hsymm, htrans, -, -, hspells⟩ :=
    @sameCell_is_partial_equivalence number spelled plain trivial trivial trivial
  obtain ⟨-, -, hself, hswap, -⟩ :=
    @sameCell_is_partial_equivalence nan number plain trivial trivial trivial
  have hnan : SpellsDouble (Text.trim " -NaN").toList .nan :=
    (hspells " -NaN" .nan).mp (by decide +kernel)
  exact ⟨⟨hfirst, hsymm hfirst⟩, ⟨hsecond, htrans hfirst hsecond⟩, hnan,
    fun h => (hself.mp h).2 ⟨_, rfl, hnan⟩, hswap⟩

end EntityService.Store
