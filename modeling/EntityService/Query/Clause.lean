import EntityService.Json.Value
import EntityService.Query.Comparison

/-!
# Clauses

A condition on one column.

## Main definitions

* `Clause` — equality, comparison, membership in a list, or nullness
* `Clause.column` — the column of a clause
* `Clause.same` — equality of clauses
-/

namespace EntityService.Query

open EntityService.Json

/-- A condition on one column. -/
inductive Clause where
  | equality (column : String) (value : Value)
  | comparison (column : String) (op : Comparison) (value : Value)
  | membership (column : String) (values : List Value) (negated : Bool)
  | nullness (column : String) (isNull : Bool)
  deriving Repr

namespace Clause

/-- The column of a clause. -/
def column : Clause → String
  | equality c _ => c
  | comparison c _ _ => c
  | membership c _ _ => c
  | nullness c _ => c

/-- Equality of clauses, with equality of values. -/
def same : Clause → Clause → Bool
  | equality c v, equality d w => c == d && v.same w
  | comparison c o v, comparison d p w => c == d && o == p && v.same w
  | membership c vs m, membership d ws n => c == d && Value.sameItems vs ws && m == n
  | nullness c m, nullness d n => c == d && m == n
  | _, _ => false

end Clause

end EntityService.Query
