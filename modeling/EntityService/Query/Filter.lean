import EntityService.Query.Clause
import EntityService.Query.Params
import EntityService.Query.Suffix
import EntityService.Text.Split

/-!
# Filters of a request

The clauses that the parameters of a request ask for, restricted to the columns a request may filter
by.

## Main definitions

* `FieldSet` — the columns a request may filter by
* `SuffixKind.clause` — the clause of a suffix
* `resolveFilters` — the clauses of the parameters

## Design notes

A parameter gives an equality when its whole key is an allowed column, and a clause of its suffix
when what stands before the suffix is one.  Both may hold; the equality comes first.
-/

namespace EntityService.Query

open EntityService.Json EntityService.Text

/-- The columns a request may filter by, each once, in the order of their first mention. -/
structure FieldSet where
  fields : List String
  deriving DecidableEq, Repr, Inhabited

namespace FieldSet

/-- The given columns together with the primary key and the two timestamps. -/
def of (fields : List String) (primaryKey createdAt updatedAt : String) : FieldSet :=
  ⟨(fields ++ [primaryKey, createdAt, updatedAt]).eraseDups⟩

/-- A request may filter by the column. -/
def contains (s : FieldSet) (column : String) : Bool := s.fields.contains column

end FieldSet

/-- The values of a list in one text, separated by commas. -/
def listedValues (value : String) : List Value := (pieces ',' value).map .string

/-- The clause that a suffix asks for with the value of its parameter. -/
def SuffixKind.clause (column value : String) : SuffixKind → Clause
  | .isIn => .membership column (listedValues value) false
  | .notIn => .membership column (listedValues value) true
  | .isNull => .nullness column true
  | .isNotNull => .nullness column false
  | .compare .like => .comparison column .like (.string ("%" ++ value ++ "%"))
  | .compare op => .comparison column op (.string value)

/-- The equality that a parameter asks for by its whole key. -/
def exactClause? (fields : FieldSet) (key value : String) : Option Clause :=
  if fields.contains key then some (.equality key (.string value)) else none

/-- The clause that a parameter asks for by the suffix of its key. -/
def suffixClause? (fields : FieldSet) (key value : String) : Option Clause :=
  match resolveSuffix? key with
  | none => none
  | some (column, rule) =>
    if fields.contains column then some (rule.kind.clause column value) else none

/-- The clauses of one parameter. -/
def clausesOfParam (fields : FieldSet) (key value : String) : List Clause :=
  (exactClause? fields key value).toList ++ (suffixClause? fields key value).toList

/-- The clauses of the parameters, in their order. -/
def resolveFilters (params : Params) (fields : FieldSet) : List Clause :=
  params.pairs.flatMap fun (key, value) => clausesOfParam fields key value

/-! ### Parameters that ask for nothing -/

/-- A key names an allowed column, as a whole or by what stands before its suffix. -/
def FieldSet.covers (fields : FieldSet) (key : String) : Bool :=
  fields.contains key || (resolveSuffix? key).any fun (column, _) => fields.contains column

theorem FieldSet.covers_of_no_suffix (fields : FieldSet) {key : String}
    (h : resolveSuffix? key = none) : fields.covers key = fields.contains key := by
  rw [covers, h, Option.any_none, Bool.or_false]

/-- A parameter asks for nothing when its key names no allowed column. -/
theorem clausesOfParam_eq_nil {fields : FieldSet} {key : String} (h : ¬fields.covers key)
    (value : String) : clausesOfParam fields key value = [] := by
  rw [FieldSet.covers, Bool.or_eq_true, not_or] at h
  have hexact : exactClause? fields key value = none := if_neg h.1
  have hsuffix : suffixClause? fields key value = none := by
    unfold suffixClause?
    split
    · rfl
    · next column rule heq =>
        rw [heq, Option.any_some] at h
        exact if_neg h.2
  rw [clausesOfParam, hexact, hsuffix, Option.toList_none, List.nil_append]

theorem resolveFilters_put {fields : FieldSet} {key : String} (h : ¬fields.covers key)
    (params : Params) (value : String) :
    resolveFilters (params.put key value) fields = resolveFilters params fields := by
  have hnone := clausesOfParam_eq_nil h
  change (Params.putPair key value params.pairs).flatMap _ = params.pairs.flatMap _
  induction params.pairs with
  | nil => exact (List.flatMap_singleton _ _).trans (hnone value)
  | cons pair pairs ih =>
      obtain ⟨k, v⟩ := pair
      rw [Params.putPair]
      split
      · next hkey =>
          subst hkey
          simp only [List.flatMap_cons, hnone]
      · rw [List.flatMap_cons, List.flatMap_cons, ih]

/-! ### The columns of a request -/

/-- The clause of a suffix is about the column that stands before it. -/
theorem SuffixKind.column_clause (kind : SuffixKind) (column value : String) :
    (kind.clause column value).column = column := by
  cases kind with
  | compare op => cases op <;> rfl
  | _ => rfl

/-- Each clause of a parameter is about a column that the request may filter by. -/
theorem contains_of_mem_clausesOfParam {fields : FieldSet} {key value : String}
    {clause : Clause} (h : clause ∈ clausesOfParam fields key value) :
    fields.contains clause.column := by
  rcases List.mem_append.mp h with hexact | hsuffix
  · unfold exactClause? at hexact
    split at hexact
    · next hkey =>
        obtain rfl := List.mem_singleton.mp hexact
        exact hkey
    · cases hexact
  · unfold suffixClause? at hsuffix
    split at hsuffix
    · cases hsuffix
    · next column rule _ =>
        split at hsuffix
        · next hcolumn =>
            obtain rfl := List.mem_singleton.mp hsuffix
            exact (rule.kind.column_clause column value).symm ▸ hcolumn
        · cases hsuffix

/-- A request filters by no column but those that it may filter by. -/
theorem contains_of_mem_resolveFilters {params : Params} {fields : FieldSet} {clause : Clause}
    (h : clause ∈ resolveFilters params fields) : fields.contains clause.column := by
  obtain ⟨param, -, hmem⟩ := List.mem_flatMap.mp h
  exact contains_of_mem_clausesOfParam hmem

end EntityService.Query
