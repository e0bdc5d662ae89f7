import EntityService.Proofs.FiniteData

/-!
# Doubles nearest to integers

The order of doubles is the order of the numbers that they are.  Rounding to a double keeps the
order of integers, and it does not change integers up to `2 ^ 53`.

## Main definitions

* `units` — the absolute value of a double as a whole number of units
* `roundedSignificand` — the significand of the double nearest to a number

## Main results

* `magnitude_lt_iff` — the order of magnitudes is the order of values
* `place_ofInt_mono` — rounding keeps the order of integers
* `units_ofInt` — an integer up to `2 ^ 53` is not changed by rounding
* `place_ofInt_lt`, `eq_of_ofInt_eq` — so it is not mistaken for another integer
* `place_lt_of_toInt_lt` — a double lies below an integer when its integer part does

## Design notes

All finite doubles are whole multiples of the least positive one, so that their values are compared
as natural numbers.  Integers are rounded at one scale for each count of bits: numbers with the same
count keep their order because quotients do, and others because the significands of a binade end
where those of the next one begin.
-/

namespace EntityService.Number.Double

/-! ### Magnitudes and values -/

/-- The absolute value of a finite double in units of the least positive one, `2 ^ -1074`. -/
def units (x : Double) : Nat := x.significand * twoTo (x.scale + 1074)

/-- The units of the number one. -/
def unitsOfOne : Nat := twoTo 1074

theorem twoTo_pos (exponent : Int) : 0 < twoTo exponent := Nat.two_pow_pos _

theorem unitsOfOne_pos : 0 < unitsOfOne := twoTo_pos 1074

theorem twoTo_mul_twoTo {a b c : Int} (h : a.toNat + b.toNat = c.toNat) :
    twoTo a * twoTo b = twoTo c := by
  change 2 ^ a.toNat * 2 ^ b.toNat = 2 ^ c.toNat
  rw [← Nat.pow_add, h]

section Units

variable {x y : Double}

theorem units_of_subnormal (h : x.magnitude < binade) : x.units = x.magnitude := by
  unfold units significand scale
  rw [if_pos h, if_pos h]
  exact Nat.mul_one _

theorem units_of_normal (h : binade ≤ x.magnitude) :
    x.units = (binade + x.magnitude % binade) * 2 ^ (x.magnitude / binade - 1) := by
  have hpos : 1 ≤ x.magnitude / binade := Nat.div_pos h (by decide)
  have hscale : ((x.magnitude / binade : Nat) - 1075 + 1074 : Int).toNat =
      x.magnitude / binade - 1 := by omega
  unfold units significand scale
  rw [if_neg (Nat.not_lt.mpr h), if_neg (Nat.not_lt.mpr h), twoTo, hscale]
  rfl

/-- A significand of 53 bits counts units of the scale that the binade gives. -/
theorem units_of_magnitude_eq {e r : Nat} (h : x.magnitude = e * binade + r) (hlow : binade ≤ r)
    (hhigh : r < 2 * binade) : x.units = r * 2 ^ e := by
  obtain ⟨rest, rfl⟩ := Nat.exists_eq_add_of_le hlow
  have hrest : rest < binade := by omega
  have hmagnitude : x.magnitude = binade * (e + 1) + rest := by
    rw [h, Nat.mul_succ, Nat.mul_comm]
    omega
  have hnormal : binade ≤ x.magnitude := by omega
  rw [units_of_normal hnormal, hmagnitude, Nat.mul_add_mod, Nat.mod_eq_of_lt hrest,
    Nat.mul_add_div (show 0 < binade by decide), Nat.div_eq_of_lt hrest]
  rfl

/-- A double lies below the end of its binade. -/
theorem units_lt (x : Double) : x.units < binade * 2 ^ (x.magnitude / binade) := by
  rcases Nat.lt_or_ge x.magnitude binade with hsmall | hlarge
  · rw [units_of_subnormal hsmall, Nat.div_eq_of_lt hsmall]
    exact hsmall.trans_eq (Nat.mul_one _).symm
  · have hmod := Nat.mod_lt x.magnitude (show 0 < binade by decide)
    obtain ⟨e, he⟩ := Nat.exists_eq_add_of_le' (Nat.div_pos hlarge (show 0 < binade by decide))
    rw [units_of_normal hlarge, he, Nat.add_sub_cancel, Nat.pow_succ', ← Nat.mul_assoc]
    exact Nat.mul_lt_mul_of_pos_right (by omega) (Nat.two_pow_pos e)

/-- A double of greater magnitude is a greater number. -/
theorem units_lt_units (h : x.magnitude < y.magnitude) : x.units < y.units := by
  rcases Nat.lt_or_ge y.magnitude binade with hsmall | hlarge
  · rwa [units_of_subnormal hsmall, units_of_subnormal (h.trans hsmall)]
  · rcases (Nat.div_le_div_right h.le : x.magnitude / binade ≤ y.magnitude / binade).lt_or_eq
      with hbinade | hbinade
    · -- the binade of the greater one begins where that of the other one ends, or later
      calc x.units < binade * 2 ^ (x.magnitude / binade) := units_lt x
        _ ≤ binade * 2 ^ (y.magnitude / binade - 1) :=
          Nat.mul_le_mul_left _ (Nat.pow_le_pow_right (by decide) (by omega))
        _ ≤ y.units := units_of_normal hlarge ▸ Nat.mul_le_mul_right _ (Nat.le_add_right _ _)
    · have hx : binade ≤ x.magnitude := by
        by_contra hsmall
        have hdiv := Nat.div_pos hlarge (show 0 < binade by decide)
        rw [← hbinade, Nat.div_eq_of_lt (Nat.not_le.mp hsmall)] at hdiv
        exact hdiv.false
      have hmod : x.magnitude % binade < y.magnitude % binade := by
        have hdivmod := Nat.div_add_mod x.magnitude binade
        have hdivmod' := Nat.div_add_mod y.magnitude binade
        rw [← hbinade] at hdivmod'
        omega
      rw [units_of_normal hx, units_of_normal hlarge, hbinade]
      exact Nat.mul_lt_mul_of_pos_right (by omega) (Nat.two_pow_pos _)

/-- The order of magnitudes is the order of values. -/
theorem magnitude_lt_iff : x.magnitude < y.magnitude ↔ x.units < y.units := by
  refine ⟨units_lt_units, fun h => ?_⟩
  by_contra hle
  rcases (Nat.not_lt.mp hle).lt_or_eq with hlt | heq
  · exact (units_lt_units hlt).asymm h
  · rw [units, units, significand, significand, scale, scale, heq] at h
    exact h.false

/-- The numerator of a double counts units, over its denominator. -/
theorem num_mul_unitsOfOne (x : Double) : x.num * unitsOfOne = x.units * x.den := by
  have hscale : -1074 ≤ x.scale := by
    unfold scale
    split_ifs with hsmall
    · exact le_rfl
    · have hpos : 1 ≤ x.magnitude / binade := Nat.div_pos (Nat.le_of_not_lt hsmall) (by decide)
      omega
  have hleft : twoTo x.scale * unitsOfOne = twoTo (max x.scale 0 + 1074) :=
    twoTo_mul_twoTo (by omega)
  have hright : twoTo (x.scale + 1074) * twoTo (-x.scale) = twoTo (max x.scale 0 + 1074) :=
    twoTo_mul_twoTo (by omega)
  rw [num, Nat.mul_assoc, hleft, ← hright, ← Nat.mul_assoc]
  rfl

end Units

/-! ### Rounding of integers -/

section Rounding

/-- Rounding to whole numbers keeps the order of quotients. -/
theorem roundedQuotient_mono {m n den : Nat} (hden : 0 < den) (h : m ≤ n) :
    roundedQuotient m den ≤ roundedQuotient n den := by
  have hm := Nat.div_add_mod m den
  have hn := Nat.div_add_mod n den
  have hrest := Nat.mod_lt m hden
  unfold roundedQuotient
  dsimp only
  rcases (Nat.div_le_div_right h : m / den ≤ n / den).lt_or_eq with hquotient | hquotient
  · -- a quotient is rounded to itself or the next integer
    split_ifs <;> omega
  · rw [← hquotient] at hn ⊢
    split_ifs <;> omega

/-- A quotient that is not below a whole number is not rounded to one below it. -/
theorem le_roundedQuotient {num den bound : Nat} (hden : 0 < den) (h : bound * den ≤ num) :
    bound ≤ roundedQuotient num den := by
  have hquotient : bound ≤ num / den := (Nat.le_div_iff_mul_le hden).mpr h
  unfold roundedQuotient
  dsimp only
  split_ifs <;> omega

/-- An integer is rounded at the scale that gives it 53 bits. -/
theorem scaleOfRatio_one {n : Nat} (hn : n ≠ 0) : scaleOfRatio n 1 = n.log2 - 52 := by
  have hlog := Nat.log2_self_le hn
  have hlow : ¬scaledNum n ((n.log2 : Int) - Nat.log2 1 - 53) <
      twoTo 53 * scaledDen 1 ((n.log2 : Int) - Nat.log2 1 - 53) := by
    have hexponent : 53 + ((n.log2 : Int) - Nat.log2 1 - 53).toNat =
        n.log2 + (-((n.log2 : Int) - Nat.log2 1 - 53)).toNat := by
      have hone : Nat.log2 1 = 0 := by decide
      omega
    change ¬n * 2 ^ (-((n.log2 : Int) - Nat.log2 1 - 53)).toNat <
      2 ^ 53 * (1 * 2 ^ ((n.log2 : Int) - Nat.log2 1 - 53).toNat)
    rw [Nat.one_mul, ← Nat.pow_add, hexponent, Nat.pow_add, Nat.not_lt]
    exact Nat.mul_le_mul_right _ hlog
  have hone : Nat.log2 1 = 0 := by decide
  unfold scaleOfRatio
  dsimp only
  rw [if_neg hlow, hone]
  omega

/-- The significand to which a positive integer is rounded. -/
def roundedSignificand (n : Nat) : Nat :=
  roundedQuotient (n * 2 ^ (52 - n.log2)) (2 ^ (n.log2 - 52))

theorem magnitude_ofRatio_one (negative : Bool) {n : Nat} (hn : n ≠ 0) :
    (ofRatio negative n 1).magnitude =
      min ((n.log2 + 1022) * binade + roundedSignificand n) infinityMagnitude := by
  have hnum : scaledNum n (n.log2 - 52) = n * 2 ^ (52 - n.log2) := by
    have hexponent : (-((n.log2 : Int) - 52)).toNat = 52 - n.log2 := by omega
    exact congrArg (n * 2 ^ ·) hexponent
  have hden : scaledDen 1 (n.log2 - 52) = 2 ^ (n.log2 - 52) := by
    have hexponent : ((n.log2 : Int) - 52).toNat = n.log2 - 52 := by omega
    exact (Nat.one_mul _).trans (congrArg (2 ^ ·) hexponent)
  have hbinade : ((n.log2 : Int) - 52 + 1074).toNat = n.log2 + 1022 := by omega
  unfold ofRatio
  rw [if_neg hn, scaleOfRatio_one hn]
  dsimp only
  rw [hnum, hden, hbinade, roundedSignificand]

/-- The significand has 53 bits, or is the first number that has more. -/
theorem roundedSignificand_bounds {n : Nat} (hn : n ≠ 0) :
    binade ≤ roundedSignificand n ∧ roundedSignificand n ≤ 2 * binade := by
  have hlog := Nat.log2_self_le hn
  have hlt : n < 2 ^ (n.log2 + 1) := Nat.lt_log2_self
  constructor
  · refine le_roundedQuotient (Nat.two_pow_pos _) ?_
    calc 2 ^ 52 * 2 ^ (n.log2 - 52) = 2 ^ n.log2 * 2 ^ (52 - n.log2) := by
          rw [← Nat.pow_add, ← Nat.pow_add]
          congr 1
          omega
      _ ≤ n * 2 ^ (52 - n.log2) := Nat.mul_le_mul_right _ hlog
  · refine roundedQuotient_le (Nat.two_pow_pos _) ?_
    calc n * 2 ^ (52 - n.log2) ≤ 2 ^ (n.log2 + 1) * 2 ^ (52 - n.log2) :=
          Nat.mul_le_mul_right _ hlt.le
      _ = 2 ^ 53 * 2 ^ (n.log2 - 52) := by
          rw [← Nat.pow_add, ← Nat.pow_add]
          congr 1
          omega
      _ = 2 * binade * 2 ^ (n.log2 - 52) := rfl

/-- Rounding keeps the order of natural numbers. -/
theorem magnitude_ofRatio_one_mono {m n : Nat} (h : m ≤ n) (negative other : Bool) :
    (ofRatio negative m 1).magnitude ≤ (ofRatio other n 1).magnitude := by
  rcases Nat.eq_zero_or_pos m with rfl | hm
  · exact Nat.zero_le _
  · have hm := hm.ne'
    have hn : n ≠ 0 := by omega
    rw [magnitude_ofRatio_one _ hm, magnitude_ofRatio_one _ hn]
    refine min_le_min_right _ ?_
    have hlog : m.log2 ≤ n.log2 := (Nat.le_log2 hn).mpr ((Nat.log2_self_le hm).trans h)
    rcases hlog.lt_or_eq with hlt | heq
    · calc (m.log2 + 1022) * binade + roundedSignificand m
          ≤ (m.log2 + 1022) * binade + 2 * binade :=
            Nat.add_le_add_left (roundedSignificand_bounds hm).2 _
        _ ≤ (n.log2 + 1022) * binade + binade := by
            have hmul := Nat.mul_le_mul_right binade (Nat.succ_le_of_lt hlt)
            rw [Nat.succ_mul] at hmul
            rw [Nat.add_mul, Nat.add_mul]
            omega
        _ ≤ (n.log2 + 1022) * binade + roundedSignificand n :=
            Nat.add_le_add_left (roundedSignificand_bounds hn).1 _
    · rw [roundedSignificand, roundedSignificand, heq]
      exact Nat.add_le_add_left
        (roundedQuotient_mono (Nat.two_pow_pos _) (Nat.mul_le_mul_right _ h)) _

/-- A number of at most 53 bits is its own significand, but for zeros at its end. -/
theorem roundedSignificand_of_log2_le {n : Nat} (h : n.log2 ≤ 52) :
    roundedSignificand n = n * 2 ^ (52 - n.log2) := by
  rw [roundedSignificand, Nat.sub_eq_zero_of_le h, roundedQuotient, Nat.pow_zero, Nat.mod_one,
    Nat.div_one]
  rfl

/-- A natural number up to `2 ^ 53` is not changed by rounding. -/
theorem units_ofRatio_one (negative : Bool) {n : Nat} (h : n ≤ 2 ^ 53) :
    (ofRatio negative n 1).units = n * unitsOfOne := by
  rcases h.lt_or_eq with hlt | rfl
  · rcases Nat.eq_zero_or_pos n with rfl | hpos
    · cases negative <;> decide +kernel
    · have hn := hpos.ne'
      have hlog : n.log2 ≤ 52 := Nat.lt_succ_iff.mp ((Nat.log2_lt hn).mpr hlt)
      have hsignificand := roundedSignificand_of_log2_le hlog
      have hhigh : roundedSignificand n < 2 * binade := by
        calc roundedSignificand n = n * 2 ^ (52 - n.log2) := hsignificand
          _ < 2 ^ (n.log2 + 1) * 2 ^ (52 - n.log2) :=
            Nat.mul_lt_mul_of_pos_right Nat.lt_log2_self (Nat.two_pow_pos _)
          _ = 2 ^ 53 := by
            rw [← Nat.pow_add]
            congr 1
            omega
      have hmagnitude : (ofRatio negative n 1).magnitude =
          (n.log2 + 1022) * binade + roundedSignificand n := by
        have hbound : (n.log2 + 1022) * binade ≤ 1074 * binade :=
          Nat.mul_le_mul_right _ (by omega)
        have hfinite : 1076 * binade ≤ infinityMagnitude := by decide
        rw [magnitude_ofRatio_one _ hn, min_eq_left (by omega)]
      rw [units_of_magnitude_eq hmagnitude (roundedSignificand_bounds hn).1 hhigh, hsignificand]
      calc n * 2 ^ (52 - n.log2) * 2 ^ (n.log2 + 1022)
          = n * (twoTo (52 - n.log2 : Nat) * twoTo (n.log2 + 1022 : Nat)) := Nat.mul_assoc ..
        _ = n * unitsOfOne := congrArg (n * ·) (twoTo_mul_twoTo (by omega))
  · cases negative <;> decide +kernel

end Rounding

/-! ### Integers as doubles -/

section Integers

theorem negative_ofInt (n : Int) : (ofInt n).negative = decide (n < 0) := by
  unfold ofInt ofRatio
  split_ifs <;> rfl

theorem place_ofInt (n : Int) :
    (ofInt n).place =
      if n < 0 then -((ofInt n).magnitude : Int) else (ofInt n).magnitude := by
  rw [place, negative_ofInt]
  simp only [decide_eq_true_eq]

/-- Rounding keeps the order of integers. -/
theorem place_ofInt_mono {a b : Int} (h : a ≤ b) : (ofInt a).place ≤ (ofInt b).place := by
  rw [place_ofInt, place_ofInt]
  split_ifs with ha hb hb
  · have hmono : (ofInt b).magnitude ≤ (ofInt a).magnitude :=
      magnitude_ofRatio_one_mono (by omega) _ _
    omega
  · omega
  · omega
  · have hmono : (ofInt a).magnitude ≤ (ofInt b).magnitude :=
      magnitude_ofRatio_one_mono (by omega) _ _
    omega

/-- An integer up to `2 ^ 53` is not changed by rounding. -/
theorem units_ofInt {n : Int} (h : n.natAbs ≤ 2 ^ 53) :
    (ofInt n).units = n.natAbs * unitsOfOne :=
  units_ofRatio_one _ h

/-- Integers up to `2 ^ 53` are told apart by their doubles. -/
theorem magnitude_ofInt_lt {a b : Int} (h : a.natAbs < b.natAbs) (hb : b.natAbs ≤ 2 ^ 53) :
    (ofInt a).magnitude < (ofInt b).magnitude := by
  rw [magnitude_lt_iff, units_ofInt (h.le.trans hb), units_ofInt hb]
  exact Nat.mul_lt_mul_of_pos_right h unitsOfOne_pos

theorem place_ofInt_lt_succ {n : Int} (hlow : -2 ^ 53 ≤ n) (hhigh : n < 2 ^ 53) :
    (ofInt n).place < (ofInt (n + 1)).place := by
  rw [place_ofInt, place_ofInt]
  split_ifs with hn hsucc hsucc
  · have hlt : (ofInt (n + 1)).magnitude < (ofInt n).magnitude :=
      magnitude_ofInt_lt (by omega) (by omega)
    omega
  · -- from -1 to 0
    have hlt : (ofInt (n + 1)).magnitude < (ofInt n).magnitude :=
      magnitude_ofInt_lt (by omega) (by omega)
    omega
  · omega
  · have hlt : (ofInt n).magnitude < (ofInt (n + 1)).magnitude :=
      magnitude_ofInt_lt (by omega) (by omega)
    omega

/-- Rounding keeps an integer below `2 ^ 53` apart from all greater ones. -/
theorem place_ofInt_lt {a b : Int} (hlow : -2 ^ 53 ≤ a) (hhigh : a < 2 ^ 53) (h : a < b) :
    (ofInt a).place < (ofInt b).place :=
  (place_ofInt_lt_succ hlow hhigh).trans_le (place_ofInt_mono h)

/-- Negative integers are rounded to negative numbers, and no others are. -/
theorem place_ofInt_neg_iff {n : Int} : (ofInt n).place < 0 ↔ n < 0 := by
  have hzero : (ofInt 0).place = 0 := rfl
  constructor
  · intro h
    by_contra hn
    have hmono := place_ofInt_mono (Int.not_lt.mp hn)
    omega
  · intro h
    have hmono := place_ofInt_mono (show n ≤ -1 by omega)
    have hlt : (ofInt (-1)).place < (ofInt 0).place :=
      place_ofInt_lt_succ (by decide) (by decide)
    omega

/-- Doubles nearest to integers are the same when they have the same place. -/
theorem ofInt_eq_of_place_eq {a b : Int} (h : (ofInt a).place = (ofInt b).place) :
    ofInt a = ofInt b := by
  have hsign : a < 0 ↔ b < 0 := by
    rw [← place_ofInt_neg_iff, h, place_ofInt_neg_iff]
  have hnegative : (ofInt a).negative = (ofInt b).negative := by
    rw [negative_ofInt, negative_ofInt, decide_eq_decide.mpr hsign]
  have hmagnitude : (ofInt a).magnitude = (ofInt b).magnitude := by
    rw [place_ofInt, place_ofInt] at h
    split_ifs at h <;> omega
  calc ofInt a = ⟨(ofInt a).negative, (ofInt a).magnitude⟩ := rfl
    _ = ⟨(ofInt b).negative, (ofInt b).magnitude⟩ := by rw [hnegative, hmagnitude]
    _ = ofInt b := rfl

/-- An integer of at most 53 bits shares its nearest double with no other integer. -/
theorem eq_of_ofInt_eq {a b : Int} (ha : a.natAbs < 2 ^ 53) (h : ofInt a = ofInt b) : a = b := by
  rcases Int.lt_trichotomy a b with hlt | heq | hgt
  · have hplace := place_ofInt_lt (by omega) (by omega) hlt
    rw [h] at hplace
    exact absurd hplace (Int.lt_irrefl _)
  · exact heq
  · have hplace := (place_ofInt_mono (show b ≤ a - 1 by omega)).trans_lt
      (place_ofInt_lt_succ (n := a - 1) (by omega) (by omega))
    rw [Int.sub_add_cancel, h] at hplace
    exact absurd hplace (Int.lt_irrefl _)

/-- A double whose integer part lies below a positive integer up to `2 ^ 53` lies below it. -/
theorem place_lt_of_toInt_lt {x : Double} (hx : x.isNaN = false) {n : Int} (hpos : 0 < n)
    (hn : n ≤ 2 ^ 53) (h : x.toInt < n) : x.place < (ofInt n).place := by
  have hmagnitude : (ofInt n).place = (ofInt n).magnitude := by
    rw [place_ofInt, if_neg (by omega)]
  rw [hmagnitude]
  unfold toInt at h
  dsimp only at h
  rw [hx, if_neg Bool.false_ne_true] at h
  cases hnegative : x.negative with
  | true =>
      have hzero : (ofInt 0).magnitude < (ofInt n).magnitude :=
        magnitude_ofInt_lt (by omega) (by omega)
      rw [place, hnegative, if_pos rfl]
      omega
  | false =>
      rw [hnegative, if_neg Bool.false_ne_true, if_neg Bool.false_ne_true] at h
      have hmax : (2 : Int) ^ 53 < maxInt64 := by decide
      split_ifs at h with hfinite
      · omega
      · have hquotient : x.num / x.den < n.natAbs := by omega
        have hnum : x.num < n.natAbs * x.den :=
          (Nat.div_lt_iff_lt_mul (Nat.two_pow_pos _)).mp hquotient
        have hlt : x.units * x.den < n.natAbs * unitsOfOne * x.den := by
          rw [← num_mul_unitsOfOne, Nat.mul_right_comm]
          exact Nat.mul_lt_mul_of_pos_right hnum unitsOfOne_pos
        rw [place, hnegative, if_neg Bool.false_ne_true, Int.ofNat_lt, magnitude_lt_iff,
          units_ofInt (by omega)]
        exact Nat.lt_of_mul_lt_mul_right hlt

end Integers

end EntityService.Number.Double
