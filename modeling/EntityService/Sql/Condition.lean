import EntityService.Query.Page
import EntityService.Sql.Column

/-!
# Conditions and orders in statements

The filters, the order and the limit of a plan as parts of a statement.

## Main definitions

* `condition` — the condition of a filter
* `wherePart` — the conditions of a plan
* `orderPart` — the order of a plan
* `limitPart`, `offsetPart` — the window of a plan
-/

namespace EntityService.Sql

open EntityService.Json EntityService.Model EntityService.Query

/-- The condition of a filter on the rows known by an alias. -/
def condition (e : Entity) (rowAlias : String) : Call → Statement
  | .compare name .eq .null => column rowAlias name ++ words " IS NULL"
  | .compare name .notEq .null => column rowAlias name ++ words " IS NOT NULL"
  | .compare name .like value => column rowAlias name ++ words "::text LIKE " ++ [.param value none]
  | .compare name op value =>
    operand e rowAlias name ++ words (" " ++ op.sql ++ " ") ++ placeholder e name value
  | .oneOf _ [] negated => words (if negated then "TRUE" else "FALSE")
  | .oneOf name values negated =>
    operand e rowAlias name ++ words (if negated then " NOT IN (" else " IN (") ++
      listed ", " (values.map (placeholder e name)) ++ words ")"
  | .nullness name isNull =>
    column rowAlias name ++ words (if isNull then " IS NULL" else " IS NOT NULL")
  | _ => []

/-- The condition of a comparison, case by case. -/
theorem condition_compare (e : Entity) (rowAlias name : String) (op : Comparison) (value : Value) :
    condition e rowAlias (.compare name op value) =
      if op = .like then column rowAlias name ++ words "::text LIKE " ++ [.param value none]
      else if value.isNull ∧ op = .eq then column rowAlias name ++ words " IS NULL"
      else if value.isNull ∧ op = .notEq then column rowAlias name ++ words " IS NOT NULL"
      else operand e rowAlias name ++ words (" " ++ op.sql ++ " ") ++ placeholder e name value := by
  cases op <;> cases value <;> rfl

/-- The conditions of a plan, all of which have to hold. -/
def wherePart (p : Plan) : Statement :=
  match p.calls.filters with
  | [] => []
  | filters => words " WHERE " ++ listed " AND " (filters.map (condition p.entity mainAlias))

/-- One term of an order. -/
def orderTerm (rowAlias : String) (order : String × Bool) : Statement :=
  column rowAlias order.1 ++ words (if order.2 then " DESC" else " ASC")

/-- The order of a plan: its known orders, or the primary key when there is none. -/
def orderPart (p : Plan) : Statement :=
  words " ORDER BY " ++ match p.calls.directedOrders with
    | [] => column mainAlias p.entity.primaryKey
    | orders => listed ", " (orders.map (orderTerm mainAlias))

/-- A limit. -/
def limitPart : Option Nat → Statement
  | some n => words (" LIMIT " ++ toString (min n maxRows))
  | none => []

/-- An offset; an offset of zero is left out. -/
def offsetPart : Option Nat → Statement
  | some 0 => []
  | some n => words (" OFFSET " ++ toString (min n maxRows))
  | none => []

end EntityService.Sql
