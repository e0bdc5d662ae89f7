import EntityService.Naming
import EntityService.Store.Memory

/-!
# Rows with relations

The rows of a store in memory as they are given out: projected, with related rows and counts.

## Main definitions

* `Memory.related?` — the rows related to a row
* `Memory.loaded` — the related rows to add to a row, with their own related rows
* `Memory.shown` — a row as it is given out

## Design notes

Relations are loaded level by level: paths with a common first segment are loaded together, and the
rest of each path is loaded for the rows found.  Columns that are never shown are left out of
related rows; the rows of the plan itself keep them.
-/

namespace EntityService.Store

open EntityService.Json EntityService.Model EntityService.Query EntityService.Text

/-- The first segments of paths, each once, with the rests of the paths that begin with it. -/
def pathHeads : List (List String) → List (String × List (List String))
  | [] => []
  | [] :: paths => pathHeads paths
  | (head :: rest) :: paths =>
    let nested := if rest.isEmpty then [] else [rest]
    let others := pathHeads paths
    match others.find? fun (name, _) => name == head with
    | some (_, more) => (head, nested ++ more) :: others.filter fun (name, _) => name != head
    | none => (head, nested) :: others

/-- The value of a relation: the first related row or null, or all related rows. -/
def relationValue (kind : Config.RelationKind) (rows : List Record) : Value :=
  match kind with
  | .toOne => (rows.head?.map Value.object).getD .null
  | .toMany => .array (rows.map .object)

namespace Memory

/-- The rows of the target of a relation that are related to a row, in the order of their primary
keys. -/
def relatedRows (m : Memory) (r : Relation) (target : Entity) (row : Record) : List Record :=
  let key := Record.cell row r.localKey
  sortRows [(target.primaryKey, false)]
    ((m.rows target.id).filter fun other => sameCell (Record.cell other r.foreignKey) key)

/-- The rows related to a row with the relation and the entity they belong to; absent when there is
no such relation. -/
def related? (m : Memory) (e : Entity) (row : Record) (name : String) :
    Option (Relation × Entity × List Record) := do
  let r ← e.relation? name
  let target ← m.model.entity? r.target
  return (r, target, m.relatedRows r target row)

/-- The related rows to add to a row under the names of their relations.  `depth` bounds the length
of the paths. -/
def loaded (m : Memory) : Nat → Entity → Record → List (List String) → Record
  | 0, _, _, _ => []
  | depth + 1, e, row, paths =>
    (pathHeads paths).filterMap fun (head, nested) =>
      (m.related? e row head).map fun (r, target, rows) =>
        (head, relationValue r.kind (rows.map fun other =>
          Record.putAll (target.withoutHidden other) (m.loaded depth target other nested)))

/-- The segments of the relation paths of a plan that are known. -/
def knownPaths (m : Memory) (p : Plan) : List (List String) :=
  (p.calls.relations.filter fun path => (m.model.pathChain? p.entity path).isSome).map (pieces '.')

/-- The length of the longest path. -/
def depth (paths : List (List String)) : Nat := (paths.map List.length).foldl max 0

/-- The counts to add to a row. -/
def counted (m : Memory) (p : Plan) (row : Record) : Record :=
  p.calls.counts.filterMap fun name =>
    (m.related? p.entity row name).map fun (_, _, rows) =>
      (Naming.countKey name, .ofNat rows.length)

/-- The columns of a row that a projection takes; columns the row does not have are null. -/
def projected (columns : List String) (row : Record) : Record :=
  if selectsAll columns then row
  else Record.ofList (columns.map fun column => (column, Record.cell row column))

/-- A row of a plan as it is given out. -/
def shown (m : Memory) (p : Plan) (columns : List String) (row : Record) : Value :=
  let paths := m.knownPaths p
  .object (Record.putAll (Record.putAll (projected columns row)
    (m.loaded (depth paths) p.entity row paths)) (m.counted p row))

/-- The rows of a plan, in its order, without regard to its limit. -/
def selected (m : Memory) (p : Plan) : List Record := selection p (m.rows p.entity.id)

/-! ### The log -/

section Record

variable (m : Memory) (operation : String) (executed : Plan)

@[simp] theorem record_related? (e : Entity) (row : Record) (name : String) :
    (m.record operation executed).related? e row name = m.related? e row name := by
  unfold related? relatedRows
  simp only [record_model, record_rows]

/-- What is added to a row does not depend on the queries that were recorded. -/
@[simp] theorem record_loaded (depth : Nat) (e : Entity) (row : Record)
    (paths : List (List String)) :
    (m.record operation executed).loaded depth e row paths = m.loaded depth e row paths := by
  induction depth generalizing e row paths with
  | zero => rfl
  | succ depth ih => simp only [loaded, record_related?, ih]

@[simp] theorem record_shown (p : Plan) (columns : List String) (row : Record) :
    (m.record operation executed).shown p columns row = m.shown p columns row := by
  simp only [shown, knownPaths, counted, record_model, record_loaded, record_related?]

@[simp] theorem record_selected (p : Plan) :
    (m.record operation executed).selected p = m.selected p := by
  simp only [selected, record_rows]

end Record

instance : Storage Memory where
  get p columns m :=
    let m := m.record "get" p
    (.ok ((limited p.calls.limit? (m.selected p)).map (m.shown p columns)), m)
  paginate p columns perPage page m :=
    let m := m.record "paginate" p
    let rows := m.selected p
    let window := Page.window perPage page rows
    (.ok (Page.of (window.map (m.shown p columns)) rows.length perPage (max page 1)), m)
  count p m :=
    let m := m.record "count" p
    (.ok (m.selected p).length, m)
  delete p m :=
    let (count, m) := (m.record "delete" p).deleteRows p
    (.ok count, m)
  insert e data m :=
    let (row, m) := m.insertRow e data
    (.ok (.object row), m)
  updateByKey e id data touch m :=
    let (row, m) := m.updateRow e id data touch
    (.ok (row.map .object), m)
  ping m := (.ok (), m)

/-! ### What operations that read give -/

theorem get_fst (p : Plan) (columns : List String) (m : Memory) :
    (Storage.get p columns m).1 =
      .ok ((limited p.calls.limit? (m.selected p)).map (m.shown p columns)) := by
  simp only [Storage.get, record_selected]
  congr 2
  funext row
  exact record_shown m "get" p p columns row

theorem paginate_fst (p : Plan) (columns : List String) (perPage page : Nat) (m : Memory) :
    (Storage.paginate p columns perPage page m).1 =
      .ok (Page.of ((Page.window perPage page (m.selected p)).map (m.shown p columns))
        (m.selected p).length perPage (max page 1)) := by
  simp only [Storage.paginate, record_selected]
  congr 3
  funext row
  exact record_shown m "paginate" p p columns row

theorem first_fst (p : Plan) (columns : List String) (m : Memory) :
    (Storage.first p columns m).1 =
      .ok ((m.selected (p.add (.take 1))).head?.map (m.shown (p.add (.take 1)) columns)) := by
  have hlimit : (p.add (.take 1)).calls.limit? = some 1 := Calls.limit?_append_take _ _
  rw [Storage.first, Action.mapValue_fst, get_fst, hlimit]
  change Except.ok _ = Except.ok _
  rw [limited, List.head?_map, List.head?_take, if_neg Nat.one_ne_zero]

end Memory

end EntityService.Store
