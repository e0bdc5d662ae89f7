import EntityService.Sql.Condition
import EntityService.Sql.Relation

/-!
# Statements of plans

The statements that read, count and delete the rows of a plan.

## Main definitions

* `select` — the rows of a plan, with relations and counts
* `countRows` — the count of the rows of a plan
* `deleteRows` — the removal of the rows of a plan
-/

namespace EntityService.Sql

open EntityService.Model EntityService.Query

/-- The rows of a plan.  A window of limit and offset stands in place of the plan's own limit. -/
def select (m : Model) (p : Plan) (columns : List String) (window : Option (Nat × Nat)) :
    Statement :=
  let (loads, used) := subqueries mainAlias 0 (relationForest m p.entity p.calls.relations)
  let counts := countSubqueries m p.entity used p.calls.counts
  let limit := match window with
    | some (n, _) => some n
    | none => p.calls.limit?
  words "SELECT " ++ listed ", " (projection p.entity mainAlias columns ++ loads ++ counts) ++
    words " FROM " ++ table p.entity ++ words (" " ++ mainAlias) ++ wherePart p ++ orderPart p ++
    limitPart limit ++ offsetPart (window.map Prod.snd)

/-- The count of the rows of a plan, without regard to its limit. -/
def countRows (p : Plan) : Statement :=
  words "SELECT COUNT(*) AS " ++ [.name "count"] ++ words " FROM " ++ table p.entity ++
    words (" " ++ mainAlias) ++ wherePart p

/-- The removal of the rows of a plan.  A limit is put on the primary keys of the rows. -/
def deleteRows (p : Plan) : Statement :=
  match p.calls.limit? with
  | none =>
    words "DELETE FROM " ++ table p.entity ++ words (" AS " ++ mainAlias) ++ wherePart p
  | some limit =>
    words "DELETE FROM " ++ table p.entity ++ words " WHERE " ++ [.name p.entity.primaryKey] ++
      words " IN (SELECT " ++ column mainAlias p.entity.primaryKey ++ words " FROM " ++
      table p.entity ++ words (" " ++ mainAlias) ++ wherePart p ++ orderPart p ++
      limitPart (some limit) ++ words ")"

end EntityService.Sql
