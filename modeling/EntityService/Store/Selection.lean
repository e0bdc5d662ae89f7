import EntityService.Model.Plan
import EntityService.Store.Compare
import EntityService.Store.Like

/-!
# Selection of rows

The rows of a table that a plan is about, in their order.

## Main definitions

* `passes` — a row passes a filter
* `rowOrder` — the order of two rows
* `sortRows` — rows in an order
* `selection` — the rows of a plan

## Design notes

Rows that are equal in all columns of the order stay as they stand in the table.

Cells that stand for numbers are compared as numbers with each other and as texts with all other
cells, and a NaN counts as equal to every number.  In a column that mixes these the order of cells
need not be transitive.  What a stable sort makes of such a column is not specified, it may even
refuse it; `sortRows` is one choice there.  Where the order is transitive and total there is no
other choice.
-/

namespace EntityService.Store

open EntityService.Json EntityService.Model EntityService.Query

/-- A cell compares with a value as asked for. -/
def compares (cell : Value) (op : Comparison) (value : Value) : Bool :=
  match op with
  | .eq => if value.isNull then cell.isNull else compareCells? cell value == some .eq
  | .notEq =>
    if value.isNull then !cell.isNull
    else (compareCells? cell value).any fun order => order != .eq
  | .gt => compareCells? cell value == some .gt
  | .lt => compareCells? cell value == some .lt
  | .gte => (compareCells? cell value).any fun order => order != .lt
  | .lte => (compareCells? cell value).any fun order => order != .gt
  | .like => cellIsLike cell value

/-- A cell is one of the values, or none of them.  Null is neither, unless there are no values. -/
def isOneOf (cell : Value) (values : List Value) (negated : Bool) : Bool :=
  if values.isEmpty then negated
  else !cell.isNull && (values.any (sameCell cell) != negated)

/-- A row passes a filter. -/
def passes (row : Record) : Call → Bool
  | .compare column op value => compares (Record.cell row column) op value
  | .oneOf column values negated => isOneOf (Record.cell row column) values negated
  | .nullness column isNull => (Record.cell row column).isNull == isNull
  | _ => true

/-- A row passes all filters of a plan. -/
def passesAll (p : Plan) (row : Record) : Bool := p.calls.filters.all (passes row)

/-- The order of two rows by columns, the first that tells them apart; `true` marks descending
columns. -/
def rowOrder : List (String × Bool) → Record → Record → Ordering
  | [], _, _ => .eq
  | (column, descending) :: rest, a, b =>
    let order := sortOrder (Record.cell a column) (Record.cell b column)
    (if descending then order.swap else order).then (rowOrder rest a b)

/-- Rows in an order. -/
def sortRows (orders : List (String × Bool)) (rows : List Record) : List Record :=
  rows.mergeSort fun a b => rowOrder orders a b != .gt

/-- The rows of a plan in its order, without regard to its limit. -/
def selection (p : Plan) (rows : List Record) : List Record :=
  sortRows p.orders (rows.filter (passesAll p))

/-- The first rows up to a limit. -/
def limited {α : Type} (limit : Option Nat) (rows : List α) : List α :=
  match limit with
  | some n => rows.take n
  | none => rows

/-! ### Rows that are selected -/

theorem mem_sortRows {orders : List (String × Bool)} {rows : List Record} {row : Record} :
    row ∈ sortRows orders rows ↔ row ∈ rows :=
  List.mem_mergeSort

theorem selection_subset (p : Plan) (rows : List Record) : selection p rows ⊆ rows := by
  intro row hrow
  exact (List.mem_filter.mp (mem_sortRows.mp hrow)).1

theorem limited_subset {α : Type} (limit : Option Nat) (rows : List α) :
    limited limit rows ⊆ rows := by
  cases limit with
  | none => exact List.Subset.refl rows
  | some n => exact List.take_subset n rows

end EntityService.Store
