import EntityService.Json.Reader
import Mathlib.Tactic.Ring

/-!
# Data are finite

No number that is read from a text is infinite: neither of the two roundings of a spelled number
goes beyond the largest double.

## Main definitions

* `Double.AtMost` — a double is at most a power of two
* `Value.IsRead` — a value is what some tree denotes

## Main results

* `atMost_ofRatio`, `atMost_dividedBy` — bounds of rounded quotients
* `Numeral.isFinite_of_double?` — the double of a spelling is finite
* `Value.IsRead.isFinite`, `Value.IsRead.cell` — what is read is finite, and so are its members

## Design notes

The bounds are generous by a factor of two at each rounding.  A product that is too large is refused
when it is read, and a quotient has at most 64 bits before its point, so that nothing sharper is
needed.
-/

namespace EntityService

/-! ### Rounded quotients -/

namespace Number.Double

/-- A rounded quotient does not exceed a whole number that the quotient does not exceed. -/
theorem roundedQuotient_le {num den bound : Nat} (hden : 0 < den) (h : num ≤ bound * den) :
    roundedQuotient num den ≤ bound := by
  have hdivmod : den * (num / den) + num % den = num := Nat.div_add_mod num den
  have hquotient : num / den ≤ bound := Nat.div_le_of_le_mul (by rwa [Nat.mul_comm])
  -- a quotient that is rounded up has a rest, so it lies below the bound
  have hrest : 0 < num % den → num / den < bound := by
    intro hpos
    refine lt_of_le_of_ne hquotient ?_
    intro heq
    rw [heq, Nat.mul_comm] at hdivmod
    omega
  unfold roundedQuotient
  dsimp only
  split_ifs with hlow hhigh
  · exact hquotient
  · exact hrest (by omega)
  · have hup := hrest (by omega)
    omega

/-- At a scale that is large enough a quotient has a significand of 53 bits. -/
theorem scaledNum_le {num den : Nat} {q : Int} (hden : den ≠ 0)
    (hq : (num.log2 : Int) - den.log2 - 52 ≤ q) :
    scaledNum num q ≤ 2 ^ 53 * scaledDen den q := by
  have hnum : num ≤ 2 ^ (num.log2 + 1) := Nat.lt_log2_self.le
  have hlog : 2 ^ den.log2 ≤ den := Nat.log2_self_le hden
  calc num * 2 ^ (-q).toNat
      ≤ 2 ^ (num.log2 + 1) * 2 ^ (-q).toNat := Nat.mul_le_mul_right _ hnum
    _ = 2 ^ (num.log2 + 1 + (-q).toNat) := (Nat.pow_add ..).symm
    _ ≤ 2 ^ (53 + den.log2 + q.toNat) := Nat.pow_le_pow_right (by decide) (by omega)
    _ = 2 ^ 53 * (2 ^ den.log2 * 2 ^ q.toNat) := by ring
    _ ≤ 2 ^ 53 * (den * 2 ^ q.toNat) := by gcongr

theorem scaleOfRatio_le (num den : Nat) :
    scaleOfRatio num den ≤ max ((num.log2 : Int) - den.log2 - 52) (-1074) := by
  unfold scaleOfRatio
  dsimp only
  split_ifs <;> omega

/-- The scale of a quotient gives it a significand of 53 bits. -/
theorem scaledNum_scaleOfRatio_le {num den : Nat} (hden : den ≠ 0) :
    scaledNum num (scaleOfRatio num den) ≤ 2 ^ 53 * scaledDen den (scaleOfRatio num den) := by
  by_cases hlarge : (num.log2 : Int) - den.log2 - 52 ≤ scaleOfRatio num den
  · exact scaledNum_le hden hlarge
  · -- the scale is then the one that has been tried
    unfold scaleOfRatio at hlarge ⊢
    dsimp only at hlarge ⊢
    split_ifs at hlarge ⊢ with hfits
    · rw [max_eq_left (by omega)]
      exact hfits.le
    · omega

/-- A double is at most a power of two. -/
def AtMost (k : Nat) (x : Double) : Prop := x.magnitude ≤ (k + 1023) * binade

theorem AtMost.isFinite {k : Nat} {x : Double} (h : x.AtMost k) (hk : k ≤ 1023) : x.isFinite := by
  have hbound : (k + 1023) * binade < infinityMagnitude :=
    lt_of_le_of_lt (Nat.mul_le_mul_right _ (Nat.add_le_add_right hk _)) (by decide)
  exact decide_eq_true (lt_of_le_of_lt h hbound)

theorem AtMost.mono {k l : Nat} {x : Double} (h : x.AtMost k) (hkl : k ≤ l) : x.AtMost l :=
  h.trans (Nat.mul_le_mul_right _ (Nat.add_le_add_right hkl _))

theorem atMost_zero (negative : Bool) (k : Nat) : (zero negative).AtMost k := Nat.zero_le _

/-- Rounding does not double a quotient. -/
theorem atMost_ofRatio {num den k : Nat} (negative : Bool) (hden : den ≠ 0)
    (h : num ≤ 2 ^ k * den) : (ofRatio negative num den).AtMost (k + 1) := by
  unfold ofRatio
  dsimp only
  split_ifs with hzero
  · exact atMost_zero negative _
  · have hlog : num.log2 ≤ k + den.log2 := by
      have hlt : num < 2 ^ (k + den.log2 + 1) := by
        calc num ≤ 2 ^ k * den := h
          _ < 2 ^ k * 2 ^ (den.log2 + 1) :=
            Nat.mul_lt_mul_of_pos_left Nat.lt_log2_self (Nat.two_pow_pos k)
          _ = 2 ^ (k + den.log2 + 1) := by ring
      exact Nat.lt_succ_iff.mp ((Nat.log2_lt hzero).mpr hlt)
    have hscale := scaleOfRatio_le num den
    have hround : roundedQuotient (scaledNum num (scaleOfRatio num den))
        (scaledDen den (scaleOfRatio num den)) ≤ 2 ^ 53 :=
      roundedQuotient_le (Nat.mul_pos (Nat.pos_of_ne_zero hden) (Nat.two_pow_pos _))
        (scaledNum_scaleOfRatio_le hden)
    refine (min_le_left _ _).trans ?_
    calc (scaleOfRatio num den + 1074).toNat * binade + _
        ≤ (k + 1022) * binade + 2 ^ 53 :=
          Nat.add_le_add (Nat.mul_le_mul_right _ (by omega)) hround
      _ = (k + 1 + 1023) * binade := by
          unfold binade
          ring

theorem AtMost.num_le {k : Nat} {x : Double} (h : x.AtMost k) : x.num ≤ 2 ^ (k + 1) * x.den := by
  have hsignificand : x.significand ≤ 2 ^ 53 := by
    unfold significand
    split_ifs with hsmall
    · exact hsmall.le.trans (by decide)
    · have hmod := Nat.mod_lt x.magnitude (show 0 < binade by decide)
      unfold binade at hmod ⊢
      omega
  have hscale : 53 + x.scale.toNat ≤ k + 1 + (-x.scale).toNat := by
    have hdiv : x.magnitude / binade ≤ k + 1023 := Nat.div_le_of_le_mul (by rwa [Nat.mul_comm])
    unfold scale
    split_ifs <;> omega
  calc x.significand * 2 ^ x.scale.toNat
      ≤ 2 ^ 53 * 2 ^ x.scale.toNat := Nat.mul_le_mul_right _ hsignificand
    _ = 2 ^ (53 + x.scale.toNat) := (Nat.pow_add ..).symm
    _ ≤ 2 ^ (k + 1 + (-x.scale).toNat) := Nat.pow_le_pow_right (by decide) hscale
    _ = 2 ^ (k + 1) * 2 ^ (-x.scale).toNat := Nat.pow_add ..

/-- Division by a number that is not below one. -/
theorem AtMost.dividedBy {k : Nat} {x y : Double} (h : x.AtMost k) (hy : y.den ≤ y.num) :
    (x.dividedBy y).AtMost (k + 2) := by
  have hpos : 0 < y.num := (Nat.two_pow_pos _).trans_le hy
  refine atMost_ofRatio _ (Nat.mul_ne_zero (Nat.two_pow_pos _).ne' hpos.ne') ?_
  calc x.num * y.den ≤ 2 ^ (k + 1) * x.den * y.num := Nat.mul_le_mul h.num_le hy
    _ = 2 ^ (k + 1) * (x.den * y.num) := Nat.mul_assoc ..

/-- The powers of ten that are used to divide are not below one. -/
theorem den_powerOfTen_le : ∀ e ≤ 308, (powerOfTen e).den ≤ (powerOfTen e).num := by
  decide +kernel

end Number.Double

/-! ### Spelled numbers -/

namespace Json

open EntityService.Number

namespace Numeral

theorem leading_le {start : Nat} (h : start ≤ maxNatural64) (cs : List Char) :
    (leading start cs).1 ≤ maxNatural64 := by
  induction cs generalizing start with
  | nil => exact h
  | cons c rest ih =>
      unfold leading
      dsimp only
      split_ifs with hnext
      · exact h
      · exact ih (Nat.le_of_not_lt hnext)

theorem atMost_dividedDown (fuel : Nat) {k : Nat} {x : Double} (h : x.AtMost k) (exponent : Nat) :
    (dividedDown x exponent fuel).AtMost (k + 2 * fuel) := by
  induction fuel generalizing k x exponent with
  | zero => exact Double.atMost_zero false _
  | succ fuel ih =>
      unfold dividedDown
      split_ifs with hlast hzero
      · exact (h.dividedBy (Double.den_powerOfTen_le exponent hlast)).mono (by omega)
      · exact h.mono (by omega)
      · exact (ih (h.dividedBy (Double.den_powerOfTen_le 308 le_rfl)) _).mono (by omega)

theorem atMost_ofInt {n : Nat} (h : n ≤ maxNatural64) : (Double.ofInt n).AtMost 65 := by
  have hbound : n ≤ 2 ^ 64 * 1 := h.trans (by decide)
  exact Double.atMost_ofRatio _ one_ne_zero hbound

theorem isFinite_of_scaled? {significand : Nat} (h : significand ≤ maxNatural64) {exponent : Int}
    {x : Double} (hx : scaled? significand exponent = some x) : x.isFinite := by
  have hfirst := atMost_ofInt h
  unfold scaled? at hx
  dsimp only at hx
  split_ifs at hx with hnegative hlarge hzero hproduct
  · obtain rfl := Option.some.inj hx
    exact (atMost_dividedDown 4 hfirst _).isFinite (by decide)
  · obtain rfl := Option.some.inj hx
    exact hfirst.isFinite (by decide)
  · obtain rfl := Option.some.inj hx
    exact hproduct

/-- The double of a spelling is finite. -/
theorem isFinite_of_double? {n : Numeral} {x : Double} (h : n.double? = some x) : x.isFinite := by
  unfold double? at h
  dsimp only at h
  have hsignificand : (leading (leading 0 n.whole).1 n.fraction).1 ≤ maxNatural64 :=
    leading_le (leading_le (Nat.zero_le _) _) _
  obtain ⟨y, hy, rfl⟩ := Option.map_eq_some_iff.mp h
  -- the sign is put on at the end
  change y.isFinite = true
  split at hy
  · exact isFinite_of_scaled? hsignificand hy
  · split_ifs at hy
    · obtain rfl := Option.some.inj hy
      exact (Double.atMost_zero false 0).isFinite (by decide)
    · exact isFinite_of_scaled? hsignificand hy
    · exact isFinite_of_scaled? hsignificand hy

/-- The number of a spelling is finite. -/
theorem isFinite_of_number? {n : Numeral} {x : Json.Number} (h : n.number? = some x) :
    (Value.number x).IsFinite := by
  unfold number? at h
  dsimp only at h
  split_ifs at h with hreal hpositive hminus
  · obtain ⟨y, hy, rfl⟩ := Option.map_eq_some_iff.mp h
    exact isFinite_of_double? hy
  · obtain rfl := Option.some.inj h
    exact trivial
  · obtain rfl := Option.some.inj h
    simp only [not_or, not_lt] at hreal
    exact (atMost_ofInt hreal.2.2).isFinite (by decide)
  · obtain rfl := Option.some.inj h
    exact trivial

end Numeral

/-! ### Values -/

namespace Value

/-- A value is what some tree denotes, as the values of all bodies are. -/
def IsRead (v : Value) : Prop := ∃ depth t, Tree.valueWithin? depth t = some v

theorem IsRead.isFinite {v : Value} (h : v.IsRead) : v.IsFinite := by
  obtain ⟨depth, t, ht⟩ := h
  cases t with
  | number n =>
      rw [Tree.valueWithin?] at ht
      obtain ⟨x, hx, rfl⟩ := Option.map_eq_some_iff.mp ht
      exact Numeral.isFinite_of_number? hx
  | array items =>
      rw [Tree.valueWithin?] at ht
      split_ifs at ht
      obtain ⟨vs, -, rfl⟩ := Option.map_eq_some_iff.mp ht
      exact trivial
  | object members =>
      rw [Tree.valueWithin?] at ht
      split_ifs at ht
      obtain ⟨vs, -, rfl⟩ := Option.map_eq_some_iff.mp ht
      exact trivial
  | string s =>
      rw [Tree.valueWithin?] at ht
      obtain ⟨text, -, rfl⟩ := Option.map_eq_some_iff.mp ht
      exact trivial
  | null =>
      rw [Tree.valueWithin?] at ht
      obtain rfl := Option.some.inj ht
      exact trivial
  | bool b =>
      rw [Tree.valueWithin?] at ht
      obtain rfl := Option.some.inj ht
      exact trivial

theorem isRead_of_mem_items {depth : Nat} {items : List Tree} {vs : List Value}
    (h : Tree.itemsWithin? depth items = some vs) : ∀ v ∈ vs, v.IsRead := by
  induction items generalizing vs with
  | nil =>
      obtain rfl := Option.some.inj h
      exact nofun
  | cons t rest ih =>
      rw [Tree.itemsWithin?] at h
      simp only [Option.bind_eq_bind, Option.bind_eq_some_iff, Option.pure_def] at h
      obtain ⟨first, hfirst, others, hothers, heq⟩ := h
      obtain rfl := Option.some.inj heq
      exact List.forall_mem_cons.mpr ⟨⟨depth, t, hfirst⟩, ih hothers⟩

theorem isRead_of_mem_members {depth : Nat} {trees : List (Option String × Tree)}
    {members : List (String × Value)} (h : Tree.membersWithin? depth trees = some members) :
    ∀ member ∈ members, member.2.IsRead := by
  induction trees generalizing members with
  | nil =>
      obtain rfl := Option.some.inj h
      exact nofun
  | cons tree rest ih =>
      obtain ⟨key?, t⟩ := tree
      rw [Tree.membersWithin?] at h
      simp only [Option.bind_eq_bind, Option.bind_eq_some_iff, Option.pure_def] at h
      obtain ⟨key, -, first, hfirst, others, hothers, heq⟩ := h
      obtain rfl := Option.some.inj heq
      exact List.forall_mem_cons.mpr ⟨⟨depth, t, hfirst⟩, ih hothers⟩

theorem IsRead.item {items : List Value} (h : (array items).IsRead) {v : Value} (hv : v ∈ items) :
    v.IsRead := by
  obtain ⟨depth, t, ht⟩ := h
  cases t with
  | array trees =>
      rw [Tree.valueWithin?] at ht
      split_ifs at ht
      obtain ⟨vs, hvs, heq⟩ := Option.map_eq_some_iff.mp ht
      cases heq
      exact isRead_of_mem_items hvs v hv
  | _ => simp [Tree.valueWithin?, ofMembers] at ht

theorem IsRead.member {r : Record} (h : (object r).IsRead) {member : String × Value}
    (hmember : member ∈ r) : member.2.IsRead := by
  obtain ⟨depth, t, ht⟩ := h
  cases t with
  | object trees =>
      rw [Tree.valueWithin?] at ht
      split_ifs at ht
      obtain ⟨members, hmembers, heq⟩ := Option.map_eq_some_iff.mp ht
      cases heq
      exact isRead_of_mem_members hmembers member ((Record.mem_putAll hmember).resolve_left nofun)
  | _ => simp [Tree.valueWithin?] at ht

end Value

end Json

end EntityService
