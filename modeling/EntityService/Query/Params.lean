import EntityService.Text.Blank

/-!
# Request parameters

The parameters of a request in the order in which their keys came first.

## Main definitions

* `Params` — keys with their values, each key once
* `Params.put` — set a parameter
* `Params.get?` — the value of a key
* `Params.firstOf?` — the first value among several keys that is not blank
-/

namespace EntityService.Query

/-- Request parameters: pairs of key and value, each key once. -/
structure Params where
  pairs : List (String × String)
  deriving DecidableEq, Repr, Inhabited

namespace Params

/-- No parameters. -/
def empty : Params := ⟨[]⟩

/-- Set a key in a list of pairs.  A key that is there keeps its place. -/
def putPair (key value : String) : List (String × String) → List (String × String)
  | [] => [(key, value)]
  | (k, v) :: rest =>
    if k = key then (key, value) :: rest else (k, v) :: putPair key value rest

/-- Set a parameter.  A key that is there keeps its place and gets the new value. -/
def put (p : Params) (key value : String) : Params := ⟨putPair key value p.pairs⟩

/-- The parameters of a list of pairs, of which later ones win. -/
def ofList (pairs : List (String × String)) : Params :=
  pairs.foldl (fun p (key, value) => p.put key value) empty

/-- The value of a key. -/
def get? (p : Params) (key : String) : Option String := p.pairs.lookup key

/-- The first value among several keys that is not blank. -/
def firstOf? (p : Params) (keys : List String) : Option String :=
  (keys.filterMap p.get?).find? fun v => !Text.isBlankText v

/-! ### One parameter more -/

theorem ofList_append_singleton (pairs : List (String × String)) (key value : String) :
    ofList (pairs ++ [(key, value)]) = (ofList pairs).put key value := by
  rw [ofList, List.foldl_append]
  rfl

theorem lookup_putPair (key value other : String) (pairs : List (String × String)) :
    (putPair key value pairs).lookup other =
      if other = key then some value else pairs.lookup other := by
  induction pairs with
  | nil =>
      by_cases hother : other = key
      · rw [if_pos hother, putPair, hother, List.lookup_cons_self]
      · rw [if_neg hother, putPair, List.lookup_cons, beq_false_of_ne hother]
  | cons pair pairs ih =>
      obtain ⟨k, v⟩ := pair
      by_cases hkey : k = key
      · subst hkey
        rw [putPair, if_pos rfl, List.lookup_cons, List.lookup_cons]
        by_cases hother : other = k
        · rw [if_pos hother, hother, beq_self_eq_true]
        · rw [if_neg hother, beq_false_of_ne hother]
      · rw [putPair, if_neg hkey, List.lookup_cons, List.lookup_cons, ih]
        by_cases hother : other = k
        · subst hother
          simp only [if_neg hkey, beq_self_eq_true]
        · rw [beq_false_of_ne hother]

theorem get?_put_self (p : Params) (key value : String) :
    (p.put key value).get? key = some value :=
  (lookup_putPair key value key p.pairs).trans (if_pos rfl)

theorem get?_put_of_ne (p : Params) {key other : String} (value : String) (h : other ≠ key) :
    (p.put key value).get? other = p.get? other :=
  (lookup_putPair key value other p.pairs).trans (if_neg h)

theorem firstOf?_congr {p q : Params} {keys : List String}
    (h : ∀ key ∈ keys, p.get? key = q.get? key) : p.firstOf? keys = q.firstOf? keys := by
  have hvalues : keys.filterMap p.get? = keys.filterMap q.get? := by
    induction keys with
    | nil => rfl
    | cons key keys ih =>
        rw [List.filterMap_cons, List.filterMap_cons, h key List.mem_cons_self,
          ih fun other hother => h other (List.mem_cons_of_mem key hother)]
  rw [firstOf?, hvalues, firstOf?]

theorem firstOf?_put_of_not_mem (p : Params) {key : String} {keys : List String}
    (value : String) (h : key ∉ keys) : (p.put key value).firstOf? keys = p.firstOf? keys :=
  firstOf?_congr fun _ hother => p.get?_put_of_ne value (ne_of_mem_of_not_mem hother h)

end Params

end EntityService.Query
