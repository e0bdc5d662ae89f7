import EntityService.Proofs.WrittenText
import Mathlib.Tactic.SplitIfs

/-!
# Values are read as they are written

A value that was read from a text is read again from the text it is written as.

## Main definitions

* `IsReadBack` — a double is what its text is read as
* `Value.doubles` — the doubles in a value
* `Value.ReadsBack` — all doubles in a value are read back

## Main results

* `valueWithin?_ofNumber` — a number that was read is read again
* `Value.isReadAgain_of_valueWithin?` — a value that was read is read again, within the same depth

## Design notes

Integers, texts and records come back whatever they are.  Doubles are another matter: the reader
rounds twice, so that the double next to the one that was written may be read.  Which doubles come
back is left open here and asked for of the doubles that occur.
-/

namespace EntityService.Json

open EntityService.Number

/-! ### Numbers -/

/-- A double is what its text is read as. -/
def IsReadBack (x : Double) : Prop :=
  readValue? (Value.number (.real x)).text = some (.number (.real x))

/-- A value is this double. -/
def Value.isReal (x : Double) : Value → Bool
  | .number (.real y) => y = x
  | _ => false

theorem Value.isReal_iff {x : Double} {v : Value} : v.isReal x ↔ v = .number (.real x) := by
  unfold isReal
  split
  · simp
  · next hother => simpa using fun heq => hother x heq

instance (x : Double) : Decidable (IsReadBack x) :=
  decidable_of_iff ((readValue? (Value.number (.real x)).text).any (Value.isReal x)) (by
    simp only [Option.any_eq_true, Value.isReal_iff, IsReadBack]
    exact ⟨fun ⟨v, hv, heq⟩ => heq ▸ hv, fun h => ⟨_, h, rfl⟩⟩)

namespace Tree

theorem number?_numeralOfInt {n : Int} (hmin : Double.minInt64 ≤ n) (hmax : n ≤ maxNatural64) :
    (numeralOfInt n).number? = some (.integer n) := by
  have hvalue : digitsValue (Nat.toDigits 10 n.natAbs) = n.natAbs := Nat.ofDigitChars_ten_toDigits
  have hmin64 : Double.minInt64 = -9223372036854775808 := rfl
  have hmax64 : maxNatural64 = 18446744073709551615 := rfl
  unfold Numeral.number? numeralOfInt
  dsimp only
  rw [hvalue, if_neg (by simp; omega)]
  by_cases hn : n < 0
  · rw [if_neg (by simp [hn]), if_neg (by omega)]
    congr
    omega
  · rw [if_pos (by simp [hn])]
    congr
    omega

/-- The integers that are read fit into 64 bits. -/
theorem bounds_of_number? {n : Numeral} {k : Int} (h : n.number? = some (.integer k)) :
    Double.minInt64 ≤ k ∧ k ≤ maxNatural64 := by
  have hmin64 : Double.minInt64 = -9223372036854775808 := rfl
  unfold Numeral.number? at h
  dsimp only at h
  split at h
  · obtain ⟨x, -, hx⟩ := Option.map_eq_some_iff.mp h
    cases hx
  · split at h
    · cases h
      omega
    · split at h
      · cases h
      · cases h
        omega

end Tree

/-- A double that is read back is written as a numeral. -/
theorem IsReadBack.exists_numeral {x : Double} (h : IsReadBack x) :
    ∃ n, Tree.ofNumber (.real x) = .number n ∧ n.number? = some (.real x) := by
  have hvalue : (Tree.ofNumber (.real x)).value? = some (.number (.real x)) := by
    unfold IsReadBack readValue? at h
    rwa [readTree?_text] at h
  unfold Tree.ofNumber at hvalue ⊢
  dsimp only at hvalue ⊢
  split_ifs at hvalue ⊢
  · obtain ⟨n, hn, heq⟩ := Option.map_eq_some_iff.mp hvalue
    cases heq
    exact ⟨_, rfl, hn⟩
  · cases hvalue

/-- A number that is read is read again from its text. -/
theorem valueWithin?_ofNumber {t : Numeral} {n : Number} (h : t.number? = some n)
    (hback : ∀ x, n = .real x → IsReadBack x) (depth : Nat) :
    (Tree.ofNumber n).valueWithin? depth = some (.number n) := by
  cases n with
  | integer k =>
      obtain ⟨hmin, hmax⟩ := Tree.bounds_of_number? h
      rw [Tree.ofNumber, Tree.valueWithin?, Tree.number?_numeralOfInt hmin hmax]
      rfl
  | real x =>
      obtain ⟨n, hn, hx⟩ := (hback x rfl).exists_numeral
      rw [hn, Tree.valueWithin?, hx]
      rfl

/-! ### Doubles in values -/

namespace Value

mutual
/-- The doubles in a value. -/
def doubles : Value → List Double
  | number (.real x) => [x]
  | array items => itemDoubles items
  | object members => memberDoubles members
  | _ => []

/-- The doubles in the items of an array. -/
def itemDoubles : List Value → List Double
  | [] => []
  | v :: rest => doubles v ++ itemDoubles rest

/-- The doubles in the members of an object. -/
def memberDoubles : List (String × Value) → List Double
  | [] => []
  | (_, v) :: rest => doubles v ++ memberDoubles rest
end

/-- All doubles in a value are read back. -/
def ReadsBack (v : Value) : Prop := ∀ x ∈ v.doubles, IsReadBack x

theorem readsBack_array {items : List Value} :
    (array items).ReadsBack ↔ ∀ v ∈ items, v.ReadsBack := by
  unfold ReadsBack
  rw [doubles]
  induction items with
  | nil => simp [itemDoubles]
  | cons v rest ih => rw [itemDoubles, List.forall_mem_append, ih, List.forall_mem_cons]

theorem readsBack_object {r : Record} :
    (object r).ReadsBack ↔ ∀ member ∈ r, member.2.ReadsBack := by
  unfold ReadsBack
  rw [doubles]
  induction r with
  | nil => simp [memberDoubles]
  | cons member rest ih =>
      rw [memberDoubles, List.forall_mem_append, ih, List.forall_mem_cons]

/-- A value whose doubles are read back is read as it is written. -/
def IsReadAgain (depth : Nat) (v : Value) : Prop :=
  v.ReadsBack → (Tree.ofValue v).valueWithin? depth = some v

theorem itemsWithin?_ofItems {depth : Nat} {items : List Value}
    (h : ∀ v ∈ items, (Tree.ofValue v).valueWithin? depth = some v) :
    Tree.itemsWithin? depth (Tree.ofItems items) = some items := by
  induction items with
  | nil => rfl
  | cons v rest ih =>
      obtain ⟨hfirst, hrest⟩ := List.forall_mem_cons.mp h
      rw [Tree.ofItems, Tree.itemsWithin?, hfirst, ih hrest]
      rfl

theorem membersWithin?_ofMembers {depth : Nat} {members : Record}
    (h : ∀ member ∈ members, (Tree.ofValue member.2).valueWithin? depth = some member.2) :
    Tree.membersWithin? depth (Tree.ofMembers members) = some members := by
  induction members with
  | nil => rfl
  | cons member rest ih =>
      obtain ⟨hfirst, hrest⟩ := List.forall_mem_cons.mp h
      rw [Tree.ofMembers, Tree.membersWithin?, hfirst, ih hrest]
      rfl

/-- Nothing but null is read as null. -/
theorem eq_null_of_valueWithin? {depth : Nat} {t : Tree} (h : t.valueWithin? depth = some null) :
    t = .null := by
  cases t with
  | null => rfl
  | bool b => cases h
  | array trees =>
      rw [Tree.valueWithin?] at h
      split_ifs at h
      obtain ⟨items, -, heq⟩ := Option.map_eq_some_iff.mp h
      cases heq
  | object trees =>
      rw [Tree.valueWithin?] at h
      split_ifs at h
      obtain ⟨members, -, heq⟩ := Option.map_eq_some_iff.mp h
      cases heq
  | _ =>
      rw [Tree.valueWithin?] at h
      obtain ⟨content, -, heq⟩ := Option.map_eq_some_iff.mp h
      cases heq

mutual
theorem isReadAgain_of_valueWithin? {depth : Nat} {v : Value} (t : Tree)
    (h : t.valueWithin? depth = some v) : v.IsReadAgain depth := by
  intro hback
  cases t with
  | null => cases h; rfl
  | bool b => cases h; rfl
  | number n =>
      rw [Tree.valueWithin?] at h
      obtain ⟨m, hm, rfl⟩ := Option.map_eq_some_iff.mp h
      refine valueWithin?_ofNumber hm ?_ depth
      rintro x rfl
      exact hback x List.mem_cons_self
  | string s =>
      rw [Tree.valueWithin?] at h
      obtain ⟨s, rfl, rfl⟩ := Option.map_eq_some_iff.mp h
      rfl
  | array trees =>
      rw [Tree.valueWithin?] at h
      split_ifs at h with hdepth
      obtain ⟨items, hitems, rfl⟩ := Option.map_eq_some_iff.mp h
      have hagain : ∀ v ∈ items, v.IsReadAgain (depth - 1) :=
        isReadAgain_of_itemsWithin? trees hitems
      rw [Tree.ofValue, Tree.valueWithin?, if_neg hdepth, itemsWithin?_ofItems fun v hv =>
        hagain v hv (readsBack_array.mp hback v hv)]
      rfl
  | object trees =>
      rw [Tree.valueWithin?] at h
      split_ifs at h with hdepth
      obtain ⟨members, hmembers, rfl⟩ := Option.map_eq_some_iff.mp h
      have hagain : ∀ member ∈ members, member.2.IsReadAgain (depth - 1) :=
        isReadAgain_of_membersWithin? trees hmembers
      have hread : ∀ member ∈ Record.ofList members,
          (Tree.ofValue member.2).valueWithin? (depth - 1) = some member.2 := fun member hmember =>
        hagain member ((Record.mem_putAll hmember).resolve_left nofun)
          (readsBack_object.mp hback member hmember)
      rw [ofMembers, Tree.ofValue, Tree.valueWithin?, if_neg hdepth,
        membersWithin?_ofMembers hread, Option.map_some, ofMembers,
        Record.ofList_of_ascending (Record.ascending_ofList members)]

theorem isReadAgain_of_itemsWithin? {depth : Nat} {items : List Value} (trees : List Tree)
    (h : Tree.itemsWithin? depth trees = some items) : ∀ v ∈ items, v.IsReadAgain depth := by
  cases trees with
  | nil =>
      obtain rfl := Option.some.inj h
      exact nofun
  | cons t rest =>
      rw [Tree.itemsWithin?] at h
      simp only [Option.bind_eq_bind, Option.bind_eq_some_iff, Option.pure_def] at h
      obtain ⟨first, hfirst, others, hothers, heq⟩ := h
      obtain rfl := Option.some.inj heq
      exact List.forall_mem_cons.mpr
        ⟨isReadAgain_of_valueWithin? t hfirst, isReadAgain_of_itemsWithin? rest hothers⟩

theorem isReadAgain_of_membersWithin? {depth : Nat} {members : Record}
    (trees : List (Option String × Tree)) (h : Tree.membersWithin? depth trees = some members) :
    ∀ member ∈ members, member.2.IsReadAgain depth := by
  cases trees with
  | nil =>
      obtain rfl := Option.some.inj h
      exact nofun
  | cons tree rest =>
      obtain ⟨key?, t⟩ := tree
      rw [Tree.membersWithin?] at h
      simp only [Option.bind_eq_bind, Option.bind_eq_some_iff, Option.pure_def] at h
      obtain ⟨key, -, first, hfirst, others, hothers, heq⟩ := h
      obtain rfl := Option.some.inj heq
      exact List.forall_mem_cons.mpr
        ⟨isReadAgain_of_valueWithin? t hfirst, isReadAgain_of_membersWithin? rest hothers⟩
end

end Value

end EntityService.Json
