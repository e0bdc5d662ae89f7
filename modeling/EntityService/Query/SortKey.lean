import EntityService.Text.Blank
import EntityService.Text.Case
import EntityService.Text.Split

/-!
# Sort directives

The order of the rows that a request asks for, as in `name:asc,age:desc`.

## Main definitions

* `SortKey` — a column and a direction as it is spelled
* `SortKey.ofEntry?` — the sort of one entry of a directive
* `namedSorts`, `resolveSorts` — the sorts of a directive, without and with the default
* `SortKey.readDirection?` — the direction of a sort

## Design notes

An entry counts when it has exactly one colon.  The direction is kept as it is spelled; what is
neither `asc` nor `desc` has no effect when rows are put in order.
-/

namespace EntityService.Query

open EntityService.Text

/-- A column to sort by and the direction as it is spelled. -/
structure SortKey where
  column : String
  direction : String
  deriving DecidableEq, Repr, Inhabited

namespace SortKey

/-- The sort of one entry of a directive, which is a column and a direction around one colon. -/
def ofEntry? (entry : String) : Option SortKey :=
  match pieces ':' entry with
  | [column, direction] => some ⟨trim column, trim direction⟩
  | _ => none

/-- A direction as it is spelled, read in any case: `false` for `asc` and `true` for `desc`. -/
def readDirection? (direction : String) : Option Bool :=
  let word := lowercase (trim direction)
  if word = "asc" then some false
  else if word = "desc" then some true
  else none

end SortKey

/-- The sorts that a directive names. -/
def namedSorts (directive : Option String) : List SortKey :=
  (pieces ',' (directive.getD "")).filterMap SortKey.ofEntry?

/-- The sorts of a directive, or the given one when it names none. -/
def resolveSorts (directive : Option String) (default : SortKey) : List SortKey :=
  match namedSorts directive with
  | [] => [default]
  | sorts => sorts

theorem mem_resolveSorts {directive : Option String} {default s : SortKey}
    (h : s ∈ resolveSorts directive default) : s = default ∨ s ∈ namedSorts directive := by
  unfold resolveSorts at h
  split at h
  · exact .inl (List.mem_singleton.mp h)
  · exact .inr h

end EntityService.Query
