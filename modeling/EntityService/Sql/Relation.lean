import EntityService.Model.Resolve
import EntityService.Naming
import EntityService.Sql.Column

/-!
# Relations in statements

Related rows and their counts as subqueries.

## Main definitions

* `LoadTree` — the relations to load, as a tree
* `relationForest` — the trees of a list of paths
* `subquery`, `subqueries` — the subqueries of trees
* `countSubquery` — the subquery of a count

## Design notes

Paths with a common beginning share the nodes of that beginning, so each relation of a row is loaded
once.  Aliases are numbered in the order in which the subqueries are written, a node before its
children.
-/

namespace EntityService.Sql

open EntityService.Model EntityService.Query

/-- A relation to load, the entity it leads to and the relations to load from there. -/
inductive LoadTree where
  | node (relation : Relation) (target : Entity) (children : List LoadTree)
  deriving Repr

namespace LoadTree

/-- The relation of a node. -/
def relation : LoadTree → Relation
  | node r _ _ => r

/-- The entity a node leads to. -/
def target : LoadTree → Entity
  | node _ t _ => t

/-- The nodes below a node. -/
def children : LoadTree → List LoadTree
  | node _ _ cs => cs

end LoadTree

/-- Change the children of the node of a hop; a node that is not there is added at the end. -/
def graft (hop : Model.Hop) (change : List LoadTree → List LoadTree) :
    List LoadTree → List LoadTree
  | [] => [.node hop.relation hop.target (change [])]
  | .node r t cs :: rest =>
    if r.name = hop.relation.name then .node r t (change cs) :: rest
    else .node r t cs :: graft hop change rest

/-- Add the nodes of a path, given by its hops. -/
def insertChain : List Model.Hop → List LoadTree → List LoadTree
  | [], forest => forest
  | hop :: rest, forest => graft hop (insertChain rest) forest

/-- The trees of the paths that are known; the others are passed over. -/
def relationForest (m : Model) (e : Entity) (paths : List String) : List LoadTree :=
  (paths.filterMap (m.pathChain? e)).foldl (fun forest hops => insertChain hops forest) []

/-- The alias of the subquery with a number. -/
def relationAlias (number : Nat) : String := "r" ++ toString number

/-- The columns of related rows: the declared ones that may be shown, or the star. -/
def relatedColumns (target : Entity) (rowAlias : String) : List Statement :=
  if target.columns.isEmpty then [words (rowAlias ++ ".*")]
  else
    (target.columns.filter fun c => !target.hides c.name).map fun c =>
      output rowAlias c.name (some c)

/-- The rows of a relation's target that belong to the row known by `parent`. -/
def relatedRows (r : Relation) (target : Entity) (rowAlias parent : String) : Statement :=
  table target ++ words (" " ++ rowAlias ++ " WHERE ") ++ column rowAlias r.foreignKey ++
    words " = " ++ column parent r.localKey

/-- A subquery for related rows: one of them as an object, or all of them as an array. -/
def relatedSelect (r : Relation) (target : Entity) (rowAlias parent : String)
    (columns : List Statement) : Statement :=
  match r.kind with
  | .toOne =>
    words "(SELECT row_to_json(sub) FROM (SELECT " ++ listed ", " columns ++ words " FROM " ++
      relatedRows r target rowAlias parent ++ words " LIMIT 1) sub)"
  | .toMany =>
    words "(SELECT COALESCE(json_agg(row_to_json(sub)), '[]'::json) FROM (SELECT " ++
      listed ", " columns ++ words " FROM " ++ relatedRows r target rowAlias parent ++
      words " ORDER BY " ++ column rowAlias target.primaryKey ++ words ") sub)"

mutual
/-- The subquery of a node for the row known by `parent`, and the number used last.  `used` is the
number used before. -/
def subquery (parent : String) (used : Nat) : LoadTree → Statement × Nat
  | .node r target children =>
    let rowAlias := relationAlias (used + 1)
    let (nested, last) := subqueries rowAlias (used + 1) children
    (relatedSelect r target rowAlias parent (relatedColumns target rowAlias ++ nested), last)

/-- The subqueries of several nodes, each under the name of its relation, and the number used
last. -/
def subqueries (parent : String) (used : Nat) : List LoadTree → List Statement × Nat
  | [] => ([], used)
  | .node r target children :: rest =>
    let (sub, after) := subquery parent used (.node r target children)
    let (others, last) := subqueries parent after rest
    ((sub ++ [.words " AS ", .name r.name]) :: others, last)
end

/-- The alias of the count with a number. -/
def countAlias (number : Nat) : String := "c" ++ toString number

/-- The subquery that counts the rows of a relation, if there is such a relation. -/
def countSubquery? (m : Model) (e : Entity) (number : Nat) (name : String) : Option Statement := do
  let r ← e.relation? name
  let target ← m.entity? r.target
  return words "(SELECT COUNT(*) FROM " ++ relatedRows r target (countAlias number) mainAlias ++
    words ") AS " ++ [.name (Naming.countKey name)]

/-- The subqueries of several counts; `used` is the number used before. -/
def countSubqueries (m : Model) (e : Entity) (used : Nat) : List String → List Statement
  | [] => []
  | name :: rest =>
    match countSubquery? m e (used + 1) name with
    | some sub => sub :: countSubqueries m e (used + 1) rest
    | none => countSubqueries m e used rest

end EntityService.Sql
