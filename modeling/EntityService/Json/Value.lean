import EntityService.Json.Number

/-!
# Data values

The values that requests carry, stores keep and answers show.

## Main definitions

* `Value` — a value: null, boolean, number, text, array or object
* `Record` — the members of an object in the order of their keys
* `Record.get?`, `Record.put`, `Record.keep` — look-up and change of members
* `Record.Ascending` — the order of the keys

## Design notes

Objects have no order of their own.  Their members are kept in ascending order of the keys, by code
points, so that two objects with the same members are the same list; `Record.put` keeps this order.
-/

namespace EntityService.Json

/-- A data value. -/
inductive Value where
  | null
  | bool (b : Bool)
  | number (n : Number)
  | string (s : String)
  | array (items : List Value)
  | object (members : List (String × Value))
  deriving Repr

/-- The members of an object in ascending order of their keys. -/
abbrev Record := List (String × Value)

namespace Record

variable {α : Type}

/-- The value under a key. -/
def get? (r : List (String × α)) (key : String) : Option α := r.lookup key

/-- The value under a key, null when there is none. -/
def cell (r : Record) (key : String) : Value := (get? r key).getD .null

/-- A key has a value. -/
def has (r : List (String × α)) (key : String) : Bool := (get? r key).isSome

/-- Put a value under a key, in place of the one that was there. -/
def put (key : String) (value : α) : List (String × α) → List (String × α)
  | [] => [(key, value)]
  | (k, v) :: rest =>
    match compare key k with
    | .lt => (key, value) :: (k, v) :: rest
    | .eq => (key, value) :: rest
    | .gt => (k, v) :: put key value rest

/-- Put many values under their keys, later ones in place of earlier ones. -/
def putAll (r members : List (String × α)) : List (String × α) :=
  members.foldl (fun r (key, value) => put key value r) r

/-- The record of a list of members, of which later ones win. -/
def ofList (members : List (String × α)) : List (String × α) := putAll [] members

/-- The members whose keys pass a test. -/
def keep (r : List (String × α)) (test : String → Bool) : List (String × α) :=
  r.filter fun (key, _) => test key

/-- The keys in ascending order. -/
def keys (r : List (String × α)) : List String := r.map Prod.fst

/-! ### Look-up after a change -/

theorem get?_put_self (key : String) (value : α) (r : List (String × α)) :
    get? (put key value r) key = some value := by
  induction r with
  | nil => simp [put, get?]
  | cons member rest ih =>
      obtain ⟨k, v⟩ := member
      unfold put
      cases h : compare key k with
      | lt => simp [get?]
      | eq => simp [get?]
      | gt =>
          have hne : (key == k) = false := by
            rw [beq_eq_false_iff_ne]
            rintro rfl
            simp at h
          rw [get?, List.lookup_cons, hne]
          exact ih

theorem get?_put_of_ne {key other : String} (h : other ≠ key) (value : α) (r : List (String × α)) :
    get? (put key value r) other = get? r other := by
  have hne : (other == key) = false := beq_eq_false_iff_ne.mpr h
  induction r with
  | nil => simp [put, get?, List.lookup_cons, hne]
  | cons member rest ih =>
      obtain ⟨k, v⟩ := member
      unfold put
      cases hcompare : compare key k with
      | lt => simp [get?, List.lookup_cons, hne]
      | eq =>
          obtain rfl : key = k := by simpa using hcompare
          simp [get?, List.lookup_cons, hne]
      | gt =>
          unfold get? at ih ⊢
          rw [List.lookup_cons, List.lookup_cons, ih]

/-! ### Members after a change -/

theorem mem_put {key : String} {value : α} {r : List (String × α)} {member : String × α}
    (h : member ∈ put key value r) : member = (key, value) ∨ member ∈ r := by
  induction r with
  | nil => exact .inl (List.mem_singleton.mp h)
  | cons first rest ih =>
      obtain ⟨k, v⟩ := first
      unfold put at h
      split at h
      · exact List.mem_cons.mp h
      · exact (List.mem_cons.mp h).imp_right (List.mem_cons_of_mem _)
      · rcases List.mem_cons.mp h with rfl | hrest
        · exact .inr List.mem_cons_self
        · exact (ih hrest).imp_right (List.mem_cons_of_mem _)

theorem mem_putAll {r members : List (String × α)} {member : String × α}
    (h : member ∈ putAll r members) : member ∈ r ∨ member ∈ members := by
  induction members generalizing r with
  | nil => exact .inl h
  | cons first rest ih =>
      rcases ih h with hput | hrest
      · rcases mem_put hput with rfl | hr
        · exact .inr List.mem_cons_self
        · exact .inl hr
      · exact .inr (List.mem_cons_of_mem _ hrest)

theorem mem_of_get? {r : List (String × α)} {key : String} {value : α}
    (h : get? r key = some value) : (key, value) ∈ r := by
  obtain ⟨before, after, rfl, -⟩ := List.lookup_eq_some_iff.mp h
  exact List.mem_append_right _ List.mem_cons_self

/-- A cell is null or the value of a member. -/
theorem cell_eq_null_or (r : Record) (key : String) :
    cell r key = .null ∨ (key, cell r key) ∈ r := by
  cases h : get? r key with
  | none => exact .inl (by rw [cell, h]; rfl)
  | some value =>
      have hcell : cell r key = value := by rw [cell, h]; rfl
      exact .inr (hcell.symm ▸ mem_of_get? h)

theorem cell_put_self (key : String) (value : Value) (r : Record) :
    cell (put key value r) key = value := by
  rw [cell, get?_put_self, Option.getD_some]

/-- A cell after changes is the one before, or has been put there. -/
theorem cell_putAll (r members : Record) (key : String) :
    cell (putAll r members) key = cell r key ∨ (key, cell (putAll r members) key) ∈ members := by
  induction members generalizing r with
  | nil => exact .inl rfl
  | cons first rest ih =>
      obtain ⟨k, v⟩ := first
      rcases ih (put k v r) with hcell | hmem
      · have hputAll : cell (putAll r ((k, v) :: rest)) key = cell (put k v r) key := hcell
        by_cases h : key = k
        · subst h
          rw [hputAll, cell_put_self]
          exact .inr List.mem_cons_self
        · exact .inl (hputAll.trans (by rw [cell, get?_put_of_ne h, cell]))
      · exact .inr (List.mem_cons_of_mem _ hmem)

theorem cell_putAll_of_not_mem {r members : Record} {key : String} (h : key ∉ keys members) :
    cell (putAll r members) key = cell r key :=
  (cell_putAll r members key).resolve_right fun hmem => h (List.mem_map_of_mem hmem)

theorem cell_of_not_mem {r : Record} {key : String} (h : key ∉ keys r) : cell r key = .null :=
  (cell_eq_null_or r key).resolve_right fun hmem => h (List.mem_map_of_mem hmem)

theorem mem_keys_of_has {r : List (String × α)} {key : String} (h : has r key) : key ∈ keys r := by
  obtain ⟨value, hvalue⟩ := Option.isSome_iff_exists.mp h
  exact List.mem_map_of_mem (mem_of_get? hvalue)

theorem has_of_mem_keys {r : List (String × α)} {key : String} (h : key ∈ keys r) : has r key := by
  obtain ⟨member, hmember, rfl⟩ := List.mem_map.mp h
  rw [has, Option.isSome_iff_ne_none]
  intro hnone
  exact bne_iff_ne.mp (List.lookup_eq_none_iff.mp hnone member hmember) rfl

theorem get?_eq_some_cell {r : Record} {key : String} (h : key ∈ keys r) :
    get? r key = some (cell r key) := by
  obtain ⟨value, hvalue⟩ := Option.isSome_iff_exists.mp (has_of_mem_keys h)
  rw [cell, hvalue, Option.getD_some]

/-- A change adds its keys, whatever the order of the members. -/
theorem mem_keys_put {key : String} {value : α} {r : List (String × α)} {k : String} :
    k ∈ keys (put key value r) ↔ k = key ∨ k ∈ keys r := by
  induction r with
  | nil => simp [put, keys]
  | cons first rest ih =>
      obtain ⟨l, v⟩ := first
      unfold put
      cases hcompare : compare key l with
      | lt => simp [keys]
      | eq =>
          obtain rfl : key = l := by simpa using hcompare
          simp [keys]
      | gt =>
          unfold keys at ih ⊢
          rw [List.map_cons, List.map_cons, List.mem_cons, ih, List.mem_cons, or_left_comm]

theorem mem_keys_putAll {r members : List (String × α)} {k : String} :
    k ∈ keys (putAll r members) ↔ k ∈ keys r ∨ k ∈ keys members := by
  induction members generalizing r with
  | nil => simp [putAll, keys]
  | cons first rest ih =>
      have hput : k ∈ keys (putAll (put first.1 first.2 r) rest) ↔ _ := ih
      refine hput.trans ?_
      rw [mem_keys_put, keys, keys, keys, List.map_cons, List.mem_cons, or_assoc, or_left_comm]

theorem mem_keys_of_mem {r : List (String × α)} {member : String × α} (h : member ∈ r) :
    member.1 ∈ keys r :=
  List.mem_map_of_mem h

/-- What has been put under a key is there. -/
theorem mem_of_cell_putAll {r members : Record} {key : String} (h : key ∈ keys members) :
    (key, cell (putAll r members) key) ∈ members := by
  induction members generalizing r with
  | nil => cases h
  | cons first rest ih =>
      obtain ⟨k, v⟩ := first
      have hputAll : cell (putAll r ((k, v) :: rest)) key =
          cell (putAll (put k v r) rest) key := rfl
      by_cases hrest : key ∈ keys rest
      · exact List.mem_cons_of_mem _ (ih hrest)
      · obtain rfl : key = k := (List.mem_cons.mp h).resolve_right hrest
        rcases cell_putAll (put key v r) rest key with hcell | hmem
        · rw [hputAll, hcell, cell_put_self]
          exact List.mem_cons_self
        · exact absurd (mem_keys_of_mem hmem) hrest

theorem mem_keys_keep {r : List (String × α)} {test : String → Bool} {k : String} :
    k ∈ keys (keep r test) ↔ test k ∧ k ∈ keys r := by
  unfold keys keep
  constructor
  · intro h
    obtain ⟨member, hmember, rfl⟩ := List.mem_map.mp h
    obtain ⟨hmem, htest⟩ := List.mem_filter.mp hmember
    exact ⟨htest, List.mem_map_of_mem hmem⟩
  · rintro ⟨htest, h⟩
    obtain ⟨member, hmember, rfl⟩ := List.mem_map.mp h
    exact List.mem_map_of_mem (List.mem_filter.mpr ⟨hmember, htest⟩)

/-! ### The order of the keys -/

/-- The keys stand in ascending order, and none stands twice. -/
def Ascending (r : List (String × α)) : Prop :=
  r.Pairwise fun a b => compare a.1 b.1 = .lt

theorem ascending_put {r : List (String × α)} (h : Ascending r) (key : String) (value : α) :
    Ascending (put key value r) := by
  induction r with
  | nil => exact List.pairwise_singleton _ _
  | cons first rest ih =>
      obtain ⟨k, v⟩ := first
      obtain ⟨hfirst, hrest⟩ := List.pairwise_cons.mp h
      unfold put
      cases hcompare : compare key k with
      | lt =>
          refine List.pairwise_cons.mpr ⟨List.forall_mem_cons.mpr ⟨hcompare, ?_⟩, h⟩
          exact fun member hmember => Std.TransCmp.lt_trans hcompare (hfirst member hmember)
      | eq =>
          obtain rfl : key = k := by simpa using hcompare
          exact List.pairwise_cons.mpr ⟨hfirst, hrest⟩
      | gt =>
          refine List.pairwise_cons.mpr ⟨fun member hmember => ?_, ih hrest⟩
          rcases mem_put hmember with rfl | hmem
          · exact Std.OrientedCmp.lt_of_gt hcompare
          · exact hfirst member hmem

theorem ascending_putAll {r : List (String × α)} (h : Ascending r) (members : List (String × α)) :
    Ascending (putAll r members) := by
  induction members generalizing r with
  | nil => exact h
  | cons first rest ih => exact ih (ascending_put h first.1 first.2)

theorem ascending_ofList (members : List (String × α)) : Ascending (ofList members) :=
  ascending_putAll List.Pairwise.nil members

/-- A key after all others is put at the end. -/
theorem put_of_forall_lt {r : List (String × α)} {key : String}
    (h : ∀ member ∈ r, compare member.1 key = .lt) (value : α) :
    put key value r = r ++ [(key, value)] := by
  induction r with
  | nil => rfl
  | cons first rest ih =>
      obtain ⟨k, v⟩ := first
      have hcompare : compare key k = .gt :=
        Std.OrientedCmp.gt_of_lt (h (k, v) List.mem_cons_self)
      rw [put, hcompare]
      dsimp only
      rw [ih fun member hmember => h member (List.mem_cons_of_mem _ hmember), List.cons_append]

theorem putAll_of_ascending {r members : List (String × α)} (h : Ascending (r ++ members)) :
    putAll r members = r ++ members := by
  induction members generalizing r with
  | nil => exact (List.append_nil r).symm
  | cons first rest ih =>
      have hlast : ∀ member ∈ r, compare member.1 first.1 = .lt := fun member hmember =>
        (List.pairwise_append.mp h).2.2 member hmember first List.mem_cons_self
      have hput : putAll r (first :: rest) = putAll (put first.1 first.2 r) rest := rfl
      rw [hput, put_of_forall_lt hlast, ih (by simpa using h)]
      simp

/-- A record is the record of its own members. -/
theorem ofList_of_ascending {r : List (String × α)} (h : Ascending r) : ofList r = r :=
  putAll_of_ascending h

theorem Ascending.nodup_keys {r : List (String × α)} (h : Ascending r) : (keys r).Nodup := by
  refine List.pairwise_map.mpr (h.imp fun {a b} hab heq => ?_)
  simp [heq] at hab

theorem get?_putAll_of_not_mem {members : List (String × α)} {key : String}
    (h : key ∉ keys members) (r : List (String × α)) :
    get? (putAll r members) key = get? r key := by
  induction members generalizing r with
  | nil => rfl
  | cons first rest ih =>
      rw [keys, List.map_cons, List.mem_cons, not_or] at h
      have hput : putAll r (first :: rest) = putAll (put first.1 first.2 r) rest := rfl
      rw [hput, ih h.2, get?_put_of_ne h.1]

/-- What has been put under keys that differ is found under them. -/
theorem get?_putAll_of_mem {members : List (String × α)} (hnodup : (keys members).Nodup)
    {member : String × α} (h : member ∈ members) (r : List (String × α)) :
    get? (putAll r members) member.1 = some member.2 := by
  induction members generalizing r with
  | nil => cases h
  | cons first rest ih =>
      rw [keys, List.map_cons, List.nodup_cons] at hnodup
      have hput : putAll r (first :: rest) = putAll (put first.1 first.2 r) rest := rfl
      rw [hput]
      rcases List.mem_cons.mp h with rfl | hmem
      · rw [get?_putAll_of_not_mem hnodup.1, get?_put_self]
      · exact ih hnodup.2 hmem _

/-- A member of a record is found under its key. -/
theorem Ascending.get?_of_mem {r : List (String × α)} (h : Ascending r) {member : String × α}
    (hmember : member ∈ r) : get? r member.1 = some member.2 := by
  have hfound : get? (ofList r) member.1 = some member.2 :=
    get?_putAll_of_mem h.nodup_keys hmember []
  rwa [ofList_of_ascending h] at hfound

/-- A value after changes is the one that has been put there, or else the one before. -/
theorem Ascending.get?_putAll {members : List (String × α)} (h : Ascending members)
    (r : List (String × α)) (key : String) :
    get? (putAll r members) key = (get? members key).or (get? r key) := by
  cases hvalue : get? members key with
  | some value => exact get?_putAll_of_mem h.nodup_keys (mem_of_get? hvalue) r
  | none =>
      refine get?_putAll_of_not_mem (fun hkey => ?_) r
      obtain ⟨member, hmember, rfl⟩ := List.mem_map.mp hkey
      rw [h.get?_of_mem hmember] at hvalue
      cases hvalue

end Record

namespace Value

/-- The value null. -/
def isNull : Value → Bool
  | null => true
  | _ => false

theorem eq_null_of_isNull {v : Value} (h : v.isNull) : v = null := by
  cases v with
  | null => rfl
  | _ => cases h

/-- A value that is no number, or a finite one. -/
def IsFinite : Value → Prop
  | number (.real x) => x.isFinite
  | _ => True

/-- A value that is an integer. -/
def ofInt (n : Int) : Value := .number (.integer n)

/-- A value that is a natural number. -/
def ofNat (n : Nat) : Value := ofInt n

/-- A value that is an object of the given members, of which later ones win. -/
def ofMembers (members : List (String × Value)) : Value := .object (Record.ofList members)

/-- An array of texts. -/
def ofStrings (texts : List String) : Value := .array (texts.map .string)

/-- A text or null. -/
def ofText? : Option String → Value
  | some s => .string s
  | none => .null

/-- A natural number or null. -/
def ofNat? : Option Nat → Value
  | some n => ofNat n
  | none => .null

mutual
/-- Equality of values.  Numbers are equal within one kind only; doubles are compared as
numbers. -/
def same : Value → Value → Bool
  | null, null => true
  | bool a, bool b => a == b
  | number a, number b => a.same b
  | string a, string b => a == b
  | array a, array b => sameItems a b
  | object a, object b => sameMembers a b
  | _, _ => false

/-- Equality of arrays, item by item. -/
def sameItems : List Value → List Value → Bool
  | [], [] => true
  | a :: as, b :: bs => same a b && sameItems as bs
  | _, _ => false

/-- Equality of objects, member by member. -/
def sameMembers : List (String × Value) → List (String × Value) → Bool
  | [], [] => true
  | (k, a) :: as, (l, b) :: bs => k == l && same a b && sameMembers as bs
  | _, _ => false
end

end Value

end EntityService.Json
