import EntityService.Config.Reader
import EntityService.Proofs.Composition
import EntityService.Proofs.FiniteData
import EntityService.Proofs.Trichotomy
import EntityService.Sql.Bind

/-!
# Bounds on numbers

The rule of a column may bound its numbers from below and from above.  The check compares numbers
with the bounds and passes over texts, although a text that spells a number is taken for that number
by every store.

## Main definitions

* `Double.isAtMost` — one double is at most another one
* `Rule.spans` — a number lies within the bounds of a rule
* `Entity.withoutBounds` — an entity whose rules have no bounds
* `storedNumber?` — the number that the stores take a value for

## Main results

* `storedNumber?_eq_numberOf?` — the number that is sent is the one that cells are compared by
* `valueViolation?_eq_none_iff` — which part of a rule the bounds are
* `bounds_hold_unless_spelled` — the numbers that the check keeps within the bounds
* `bounds_passed_by_texts` — an age that is spelled out may be anything

## Design notes

The bounds of a rule that is read are no NaN.  A NaN would be no bound at all, since nothing is less
or greater.
-/

namespace EntityService

open EntityService.Config EntityService.Json EntityService.Model EntityService.Number
open EntityService.Store EntityService.Validation

/-! ### Numbers within bounds -/

/-- One double is at most another one.  A NaN is in no order with anything. -/
def Number.Double.isAtMost (x y : Double) : Bool := (x.order? y).any Ordering.isLE

namespace Config.Rule

/-- A number lies within the bounds of a rule. -/
def spans (rule : Rule) (x : Double) : Bool :=
  rule.minimum.all (fun least => least.isAtMost x) && rule.maximum.all (fun most => x.isAtMost most)

/-- The bounds of a rule, as far as there are any, can be compared with. -/
structure IsBounded (rule : Rule) : Prop where
  least : ∀ least ∈ rule.minimum, least.isNaN = false
  most : ∀ most ∈ rule.maximum, most.isNaN = false

/-- A rule without its bounds. -/
def withoutBounds (rule : Rule) : Rule := { rule with minimum := none, maximum := none }

end Config.Rule

/-- An entity whose rules have no bounds. -/
def Model.Entity.withoutBounds (e : Entity) : Entity :=
  { e with validation := e.validation.map fun r => (r.1, r.2.withoutBounds) }

namespace Number.Double

variable {x y : Double} (hx : x.isNaN = false) (hy : y.isNaN = false)

include hx hy

theorem isAtMost_iff : x.isAtMost y ↔ x.place ≤ y.place := by
  rw [isAtMost, order?, hx, hy]
  exact Std.isLE_compare

/-- What is not less than a bound is bounded by it from below. -/
theorem order?_ne_lt_iff : x.order? y ≠ some .lt ↔ y.isAtMost x := by
  rw [isAtMost_iff hy hx, order?, hx, hy, ← Int.not_lt]
  simp [Int.compare_eq_lt]

theorem order?_ne_gt_iff : x.order? y ≠ some .gt ↔ x.isAtMost y := by
  rw [isAtMost_iff hx hy, order?, hx, hy, ← Int.not_lt]
  simp [Int.compare_eq_gt]

end Number.Double

/-- Numbers of data are no NaN. -/
theorem Json.Number.isNaN_toDouble {n : Json.Number} (h : (Value.number n).IsFinite) :
    n.toDouble.isNaN = false := by
  cases n with
  | integer n => exact Double.isNaN_ofInt n
  | real x => exact Double.isNaN_of_isFinite h

/-- The bounds of a rule that is read are numbers. -/
theorem Config.isBounded_of_readRule? {t : Tree} {rule : Rule} (h : readRule? t = some rule) :
    rule.IsBounded := by
  have hread {t : Tree} {x : Double} (h : Config.readDouble? t = some x) : x.isNaN = false := by
    cases t with
    | number n =>
        obtain ⟨y, hy, rfl⟩ := Option.map_eq_some_iff.mp h
        exact Number.isNaN_toDouble (Numeral.isFinite_of_number? hy)
    | _ => cases h
  have hnullable {t : Tree} {bound : Option Double}
      (h : nullable Config.readDouble? t = some bound) : ∀ x ∈ bound, x.isNaN = false := by
    unfold nullable at h
    split at h
    · cases h
      nofun
    · obtain ⟨y, hy, rfl⟩ := Option.map_eq_some_iff.mp h
      exact fun x hx => Option.some.inj hx ▸ hread hy
  have hmaybe {fields : List (String × Tree)} {name : String} {bound : Option Double}
      (h : maybe fields name Config.readDouble? = some bound) : ∀ x ∈ bound, x.isNaN = false := by
    unfold maybe withDefault at h
    split at h
    · cases h
      nofun
    · exact hnullable h
  unfold readRule? at h
  simp only [Option.bind_eq_bind, Option.bind_eq_some_iff, Option.pure_def] at h
  obtain ⟨fields, -, _, -, _, -, _, -, _, -, _, -, _, -, minimum, hminimum, maximum, hmaximum,
    heq⟩ := h
  cases heq
  exact ⟨hmaybe hminimum, hmaybe hmaximum⟩

/-! ### What the check makes of bounds -/

section Rules

variable {column : String} {rule : Rule} {v : Value}

/-- A number breaks no bound of a rule when it lies within them. -/
theorem boundViolation?_eq_none_iff (hrule : rule.IsBounded) {n : Json.Number}
    (hn : n.toDouble.isNaN = false) :
    boundViolation? column (.number n) rule = none ↔ rule.spans n.toDouble := by
  have hleast : (rule.minimum.filter fun least => n.toDouble.order? least == some .lt) = none ↔
      rule.minimum.all fun least => least.isAtMost n.toDouble := by
    cases hminimum : rule.minimum with
    | none => simp
    | some least =>
        simp [← Double.order?_ne_lt_iff hn (hrule.least least hminimum)]
  have hmost : (rule.maximum.filter fun most => n.toDouble.order? most == some .gt) = none ↔
      rule.maximum.all fun most => n.toDouble.isAtMost most := by
    cases hmaximum : rule.maximum with
    | none => simp
    | some most =>
        simp [← Double.order?_ne_gt_iff hn (hrule.most most hmaximum)]
  rw [boundViolation?, Option.orElse_eq_none, Option.map_eq_none_iff, Option.map_eq_none_iff,
    hleast, hmost, Rule.spans, Bool.and_eq_true]

/-- The bounds are the last part of a rule. -/
theorem presentViolation?_eq_none_iff :
    presentViolation? column v rule = none ↔
      presentViolation? column v rule.withoutBounds = none ∧
        boundViolation? column v rule = none := by
  unfold presentViolation?
  rw [Option.orElse_eq_none, Option.orElse_eq_none, Option.orElse_eq_none, Option.orElse_eq_none]
  have hwithout : boundViolation? column v rule.withoutBounds = none := by cases v <;> rfl
  constructor
  · rintro ⟨htext, hchoice, hbound⟩
    exact ⟨⟨htext, hchoice, hwithout⟩, hbound⟩
  · rintro ⟨⟨htext, hchoice, -⟩, hbound⟩
    exact ⟨htext, hchoice, hbound⟩

/-- A value breaks no part of a rule when it breaks none of the other parts and is no number beyond
the bounds. -/
theorem valueViolation?_eq_none_iff (hrule : rule.IsBounded) (hfinite : v.IsFinite) :
    valueViolation? column v rule = none ↔
      valueViolation? column v rule.withoutBounds = none ∧
        ∀ n, v = .number n → rule.spans n.toDouble := by
  unfold valueViolation?
  cases hnull : v.isNull with
  | true =>
      obtain rfl := Value.eq_null_of_isNull hnull
      exact (and_iff_left nofun).symm
  | false =>
      rw [if_neg Bool.false_ne_true, if_neg Bool.false_ne_true, presentViolation?_eq_none_iff,
        and_congr_right_iff]
      intro _
      cases v with
      | number n =>
          rw [boundViolation?_eq_none_iff hrule (Number.isNaN_toDouble hfinite)]
          simp
      | _ => exact iff_of_true rfl nofun

end Rules

/-- Data are let through when they are without the bounds and their numbers lie within them. -/
theorem Model.Entity.admits_iff_withoutBounds {e : Entity} (mode : Mode) {data : Record}
    (hrules : ∀ r ∈ e.validation, r.2.IsBounded)
    (hfinite : ∀ member ∈ data, member.2.IsFinite) :
    e.admits mode data ↔ e.withoutBounds.admits mode data ∧
      ∀ r ∈ e.validation, ∀ n, Record.get? data r.1 = some (.number n) →
        r.2.spans n.toDouble := by
  have hrule : ∀ r ∈ e.validation, ruleViolation? mode data r.1 r.2 = none ↔
      ruleViolation? mode data r.1 r.2.withoutBounds = none ∧
        ∀ n, Record.get? data r.1 = some (.number n) → r.2.spans n.toDouble := by
    intro r hr
    unfold ruleViolation?
    cases hget : Record.get? data r.1 with
    | none => exact (and_iff_left nofun).symm
    | some v =>
        have hv : v.IsFinite := hfinite _ (Record.mem_of_get? hget)
        simp only [valueViolation?_eq_none_iff (hrules r hr) hv, Option.some.injEq]
  rw [admits_iff, admits_iff, forall₂_congr hrule]
  simp only [Entity.withoutBounds, List.forall_mem_map]
  constructor
  · rintro ⟨hrequired, hboth, hnulled⟩
    exact ⟨⟨hrequired, fun r hr => (hboth r hr).1, hnulled⟩, fun r hr => (hboth r hr).2⟩
  · rintro ⟨⟨hrequired, hrest, hnulled⟩, hspans⟩
    exact ⟨hrequired, fun r hr => ⟨hrest r hr, hspans r hr⟩, hnulled⟩

/-! ### What the stores make of texts -/

/-- The number that the stores take a value for: a number itself, anything else what the text
spells that is sent for it. -/
def storedNumber? : Value → Option Double
  | .number n => some n.toDouble
  | v => (Sql.bindText v).bind fun s => numberOf? (.string s)

/-- The number that is sent for a value is the one by which cells are compared in memory. -/
theorem storedNumber?_eq_numberOf? (v : Value) : storedNumber? v = numberOf? v := by
  have hsent (hnull : v.isNull = false) :
      ((Sql.bindText v).bind fun s => numberOf? (.string s)) = numberOf? (.string v.plainText) := by
    rw [Sql.bindText, hnull, if_neg Bool.false_ne_true, Option.bind_some]
  have hunread (h : (numberOf? v).isSome = false) : numberOf? (.string v.plainText) = none :=
    Option.not_isSome_iff_eq_none.mp fun hread =>
      Bool.false_ne_true (h.symm.trans (isSome_numberOf?_of_text hread))
  cases v with
  | null => rfl
  | number n => rfl
  | string s => exact hsent rfl
  | bool | array | object => exact (hsent rfl).trans (hunread rfl)

/-- The check lets data through when they are let through without the bounds and the numbers among
them lie within the bounds; texts are not compared with bounds.  So what the stores take for numbers
in data that are let through lies within the bounds if and only if the numbers do that are spelled
by texts. -/
theorem bounds_hold_unless_spelled {e : Entity} {mode : Mode} {data : Record}
    (hrules : ∀ r ∈ e.validation, r.2.IsBounded)
    (hfinite : ∀ member ∈ data, member.2.IsFinite) :
    (e.admits mode data ↔ e.withoutBounds.admits mode data ∧
      ∀ r ∈ e.validation, ∀ n, Record.get? data r.1 = some (.number n) →
        r.2.spans n.toDouble) ∧
      (e.admits mode data →
        ((∀ r ∈ e.validation, ∀ v ∈ Record.get? data r.1, ∀ x ∈ storedNumber? v, r.2.spans x) ↔
          ∀ r ∈ e.validation, ∀ s, Record.get? data r.1 = some (.string s) →
            ∀ x ∈ numberOf? (.string s), r.2.spans x)) := by
  have hiff := Entity.admits_iff_withoutBounds mode hrules hfinite
  refine ⟨hiff, fun hadmits => ⟨?_, ?_⟩⟩
  · intro hall r hr s hs x hx
    exact hall r hr _ hs x ((storedNumber?_eq_numberOf? _).symm ▸ hx)
  · intro hspelled r hr v hv x hx
    rw [storedNumber?_eq_numberOf?] at hx
    cases v with
    | number n =>
        obtain rfl : n.toDouble = x := Option.some.inj hx
        exact (hiff.mp hadmits).2 r hr n hv
    | string s => exact hspelled r hr s hv x hx
    | null | bool | array | object => cases hx

/-! ### Patients -/

namespace Surgery

/-- The rule for ages: from 0 to 150. -/
def ageRule : Rule :=
  ⟨none, none, none, none, none, none, some (Double.ofInt 0), some (Double.ofInt 150)⟩

/-- Patients with a name and an age. -/
def patients : EntityDeclaration where
  id := "patients"
  schema := "public"
  table := "patients"
  pathSegment := "patients"
  primaryKey := "id"
  createdAt := "created_at"
  updatedAt := "updated_at"
  columns := [⟨"id", .simple "bigserial", false, none⟩, ⟨"name", .simple "text", false, none⟩,
    ⟨"age", .simple "integer", true, none⟩]
  filterableFields := []
  activeFlag := none
  defaultSort := none
  aggregates := []
  operations := ["create", "read", "update"]
  sensitiveColumns := []
  validation := [("age", ageRule)]
  pageSize := 25

/-- The entity of patients. -/
def patient : Entity := Model.entityOf [] patients

/-- The rule as it is declared. -/
theorem readRule?_ageRule :
    Config.readRule? (.object [(some "minimum", .number ⟨false, ['0'], [], none⟩),
      (some "maximum", .number ⟨false, ['1', '5', '0'], [], none⟩)]) = some ageRule := rfl

theorem isBounded : ∀ r ∈ patient.validation, r.2.IsBounded :=
  List.forall_mem_singleton.mpr (Config.isBounded_of_readRule? readRule?_ageRule)

end Surgery

open Surgery in
/-- The age of a new patient that is a number lies within the bounds, and no other number is let
through as an age. -/
theorem bounds_hold_unless_spelled_patients :
    let data : Record := [("age", .number (.real ⟨false, 0x4044C00000000000⟩)),
      ("name", .string "North")]
    patient.admits .create data ∧
      (∀ r ∈ patient.validation, ∀ v ∈ Record.get? data r.1, ∀ x ∈ storedNumber? v, r.2.spans x) ∧
      ¬patient.admits .update [("age", .ofInt 151)] := by
  intro data
  have hfinite : ∀ member ∈ data, member.2.IsFinite := by
    simp only [data, List.forall_mem_cons]
    exact ⟨rfl, trivial, nofun⟩
  have hadmits : patient.admits .create data := by decide +kernel
  refine ⟨hadmits, ?_, ?_⟩
  · refine ((bounds_hold_unless_spelled isBounded hfinite).2 hadmits).mpr ?_
    have hvalidation : patient.validation = [("age", ageRule)] := rfl
    rw [hvalidation, List.forall_mem_singleton]
    intro s hs
    cases hs
  · intro hupdate
    have hold : ∀ member ∈ [("age", Value.ofInt 151)], member.2.IsFinite := by
      simp only [List.forall_mem_singleton]
      exact trivial
    have hspans := ((bounds_hold_unless_spelled isBounded hold).1.mp hupdate).2 ("age", ageRule)
      (List.mem_singleton_self _) _ rfl
    revert hspans
    decide +kernel

open Surgery in
/-- An age of 200 is refused as a number and let through as a text, although the text that is sent
spells 200, and the cell of the new row is greater than 150.  So is a text for a number below the
bounds. -/
theorem bounds_passed_by_texts :
    let data (age : Value) : Record := [("age", age), ("name", .string "North")]
    Model.resolve ⟨[patients], []⟩ = .ok ⟨[patient]⟩ ∧ ("age", ageRule) ∈ patient.validation ∧
      ¬patient.admits .create (data (.ofInt 200)) ∧
      patient.admits .create (data (.string "200")) ∧
      patient.admits .update [("age", .string " -1e3 ")] ∧
      storedNumber? (.string "200") = some (Double.ofInt 200) ∧
      storedNumber? (.string " -1e3 ") = some (Double.ofInt (-1000)) ∧
      ¬ageRule.spans (Double.ofInt 200) ∧ ¬ageRule.spans (Double.ofInt (-1000)) ∧
      compareCells? (.string "200") (.ofInt 150) = some .gt := by
  intro data
  refine ⟨rfl, List.mem_singleton_self _, ?_⟩
  decide +kernel

end EntityService
