import EntityService.Number.Numeral
import EntityService.Proofs.Bookshop
import EntityService.Proofs.Dialogue
import EntityService.Proofs.Rendering

/-!
# The rows that a statement asks for

Of the rows that pass the filters of a plan, a store in memory gives out the same ones in the same
order as a database is asked for.

## Main definitions

* `Extent` — the columns to order by, the limit and the offset of a statement
* `readExtent?`, `readRemoval?` — the extent of a statement that reads or removes rows, read from
  its pieces
* `IsUnlimited` — no piece of a statement is a limit
* `AsksForWindow` — a statement asks for rows in an order, and for certain ones of them

## Main results

* `readTerms?_orderTerms`, `readExtent?_append` — what is written is read
* `asksForWindow_select`, `asksForWindow_deleteRows` — what the statements of a plan ask for
* `stores_read_same_window` — what the two stores give out for a plan

## Design notes

Limits and offsets are numbers in the text of a statement, and never larger there than the largest
count of rows.  The extent is read from the end: a statement that reads rows has subqueries with
orders and limits of their own, but they stand before the order of the rows themselves.
-/

namespace EntityService

open EntityService.Json EntityService.Model EntityService.Number EntityService.Query
open EntityService.Sql EntityService.Store

/-! ### Extents -/

/-- The columns by which rows are put in order, `true` for descending ones, the greatest count of
rows to give out, and the count of rows to pass over. -/
structure Extent where
  orders : List (String × Bool)
  limit : Option Nat
  offset : Nat
  deriving DecidableEq, Repr

/-- The rows that an extent selects of rows in order: those after the offset, up to the limit. -/
def Extent.cut {α : Type} (x : Extent) (rows : List α) : List α :=
  limited x.limit (rows.drop x.offset)

/-- The terms of an order.  A term without a direction is ascending. -/
def readTerms? : Statement → Option (List (String × Bool))
  | [.words "main.", .name column] => some [(column, false)]
  | [.words "main.", .name column, .words " ASC"] => some [(column, false)]
  | [.words "main.", .name column, .words " DESC"] => some [(column, true)]
  | .words "main." :: .name column :: .words ", " :: rest =>
    (readTerms? rest).map ((column, false) :: ·)
  | .words "main." :: .name column :: .words " ASC" :: .words ", " :: rest =>
    (readTerms? rest).map ((column, false) :: ·)
  | .words "main." :: .name column :: .words " DESC" :: .words ", " :: rest =>
    (readTerms? rest).map ((column, true) :: ·)
  | _ => none

/-- The number after a keyword. -/
def readNumber? (keyword : String) : Piece → Option Nat
  | .words text =>
    if keyword.toList.isPrefixOf text.toList then
      readDigits? (text.toList.drop keyword.toList.length)
    else none
  | _ => none

/-- The number after a keyword at the end of a statement, and the statement without them. -/
def cutNumber (keyword : String) (s : Statement) : Option Nat × Statement :=
  match s.getLast?.bind (readNumber? keyword) with
  | some n => (some n, s.dropLast)
  | none => (none, s)

/-- A piece begins the order of the rows. -/
def beginsOrder : Piece → Bool
  | .words text => text == " ORDER BY "
  | _ => false

/-- What stands after the last order. -/
def afterOrder? : Statement → Option Statement
  | [] => none
  | x :: rest => (afterOrder? rest).or (if beginsOrder x then some rest else none)

/-- The extent of a statement that reads rows: its order, and what may follow it, a limit and an
offset. -/
def readExtent? (s : Statement) : Option Extent := do
  let tail ← afterOrder? s
  let (offset, rest) := cutNumber " OFFSET " tail
  let (limit, terms) := cutNumber " LIMIT " rest
  let orders ← readTerms? terms
  return ⟨orders, limit, offset.getD 0⟩

/-- The extent of a statement that removes rows: rows in no order with a limit that may stand at the
end, or those whose keys another statement reads. -/
def readRemoval? : Statement → Option Extent
  | .words "DELETE FROM " :: .name _ :: .words "." :: .name _ :: .words " AS main" :: rest =>
    some ⟨[], (cutNumber " LIMIT " rest).1, 0⟩
  | .words "DELETE FROM " :: .name _ :: .words "." :: .name _ :: .words " WHERE " :: .name _ ::
      .words " IN (SELECT " :: rest =>
    match rest.getLast? with
    | some (.words ")") => readExtent? rest.dropLast
    | _ => none
  | _ => none

/-! ### What is written -/

/-- A piece that the terms of an order are made of. -/
def isTermPiece : Piece → Bool
  | .words text => ["main.", " ASC", " DESC", ", "].contains text
  | .name _ => true
  | .param _ _ => false

/-- The terms of the order of a plan. -/
def orderTerms (p : Plan) : Statement :=
  match p.calls.directedOrders with
  | [] => column mainAlias p.entity.primaryKey
  | orders => listed ", " (orders.map (orderTerm mainAlias))

theorem orderPart_eq (p : Plan) : orderPart p = words " ORDER BY " ++ orderTerms p := rfl

theorem readTerms?_listed (order : String × Bool) (orders : List (String × Bool)) :
    readTerms? (listed ", " ((order :: orders).map (orderTerm mainAlias))) =
      some (order :: orders) := by
  obtain ⟨column, descending⟩ := order
  induction orders generalizing column descending with
  | nil =>
      rw [List.map_singleton, listed_singleton]
      cases descending <;> rfl
  | cons next orders ih =>
      obtain ⟨nextColumn, nextDescending⟩ := next
      rw [List.map_cons, List.map_cons, listed_cons_cons, ← List.map_cons]
      have hrest := congrArg (Option.map ((column, descending) :: ·))
        (ih nextColumn nextDescending)
      cases descending <;> exact hrest

/-- The terms of the order of a plan are read as its columns with their directions. -/
theorem readTerms?_orderTerms (p : Plan) : readTerms? (orderTerms p) = some p.orders := by
  unfold orderTerms Plan.orders Calls.effectiveOrders
  cases p.calls.directedOrders with
  | nil => rfl
  | cons order orders => exact readTerms?_listed order orders

theorem isTermPiece_of_mem_orderTerms {p : Plan} {x : Piece} (h : x ∈ orderTerms p) :
    isTermPiece x := by
  have hcolumn : ∀ {name : String}, x ∈ column mainAlias name → isTermPiece x := by
    intro name hx
    rcases List.mem_cons.mp hx with rfl | hx
    · rfl
    · obtain rfl := List.mem_singleton.mp hx
      rfl
  have hterm : ∀ {order : String × Bool}, x ∈ orderTerm mainAlias order → isTermPiece x := by
    intro order hx
    rcases List.mem_append.mp hx with hx | hx
    · exact hcolumn hx
    · obtain rfl := List.mem_singleton.mp hx
      cases order.2 <;> rfl
  unfold orderTerms at h
  split at h
  · exact hcolumn h
  · rcases mem_listed h with rfl | ⟨s, hs, hx⟩
    · rfl
    · obtain ⟨order, -, rfl⟩ := List.mem_map.mp hs
      exact hterm hx

/-- The number after a keyword is read. -/
theorem readNumber?_words (keyword : String) (n : Nat) :
    readNumber? keyword (.words (keyword ++ toString n)) = some n := by
  rw [readNumber?, String.toList_append, if_pos (by simp), List.drop_left, toList_toString,
    readDigits?_toDigits]

theorem readNumber?_of_isTermPiece {x : Piece} (h : isTermPiece x) {keyword : String}
    (hkeyword : keyword ∈ [" LIMIT ", " OFFSET "]) : readNumber? keyword x = none := by
  have hall : ∀ keyword ∈ [" LIMIT ", " OFFSET "], ∀ text ∈ ["main.", " ASC", " DESC", ", "],
      readNumber? keyword (.words text) = none := by decide
  cases x with
  | words text => exact hall keyword hkeyword text (List.contains_iff_mem.mp h)
  | _ => rfl

/-- A limit is no offset. -/
theorem readNumber?_offset_limit (n : Nat) :
    readNumber? " OFFSET " (.words (" LIMIT " ++ toString n)) = none := by
  rw [readNumber?, String.toList_append]
  exact if_neg Bool.false_ne_true

theorem beginsOrder_of_isTermPiece {x : Piece} (h : isTermPiece x) : beginsOrder x = false := by
  have hall : ∀ text ∈ ["main.", " ASC", " DESC", ", "], beginsOrder (.words text) = false := by
    decide
  cases x with
  | words text => exact hall text (List.contains_iff_mem.mp h)
  | _ => rfl

/-- A keyword and a number do not begin an order. -/
theorem beginsOrder_of_readNumber? {x : Piece} {keyword : String}
    (hkeyword : keyword ∈ [" LIMIT ", " OFFSET "]) {n : Nat} (h : readNumber? keyword x = some n) :
    beginsOrder x = false := by
  have hall : ∀ keyword ∈ [" LIMIT ", " OFFSET "], readNumber? keyword (.words " ORDER BY ") = none
    := by decide
  cases x with
  | words text =>
      refine beq_eq_false_iff_ne.mpr fun heq => ?_
      rw [heq, hall keyword hkeyword] at h
      cases h
  | _ => rfl

theorem cutNumber_append {keyword : String} (s : Statement) {x : Piece} {n : Nat}
    (h : readNumber? keyword x = some n) : cutNumber keyword (s ++ [x]) = (some n, s) := by
  rw [cutNumber, List.getLast?_concat, Option.bind_some, h, List.dropLast_concat]

theorem cutNumber_of_last {keyword : String} {s : Statement}
    (h : ∀ x ∈ s.getLast?, readNumber? keyword x = none) : cutNumber keyword s = (none, s) := by
  have hnone : s.getLast?.bind (readNumber? keyword) = none := Option.bind_eq_none_iff.mpr h
  rw [cutNumber, hnone]

theorem afterOrder?_of_forall {s : Statement} (h : ∀ x ∈ s, beginsOrder x = false) :
    afterOrder? s = none := by
  induction s with
  | nil => rfl
  | cons x s ih =>
      rw [List.forall_mem_cons] at h
      rw [afterOrder?, ih h.2, h.1]
      rfl

/-- What stands after the last order is found, whatever stands before it. -/
theorem afterOrder?_append {tail : Statement} (h : ∀ x ∈ tail, beginsOrder x = false)
    (front : Statement) : afterOrder? (front ++ (words " ORDER BY " ++ tail)) = some tail := by
  induction front with
  | nil =>
      show (afterOrder? tail).or (some tail) = some tail
      rw [afterOrder?_of_forall h]
      rfl
  | cons x front ih => rw [List.cons_append, afterOrder?, ih, Option.some_or]

section Tail

variable {terms : Statement} (hterms : ∀ x ∈ terms, isTermPiece x) (limit offset : Option Nat)

include hterms

/-- A limit is read, and cut off from the terms before it. -/
theorem cutNumber_limitPart :
    cutNumber " LIMIT " (terms ++ limitPart limit) = (limit.map (min · maxRows), terms) := by
  cases limit with
  | none =>
      rw [limitPart, List.append_nil]
      exact cutNumber_of_last fun x hx =>
        readNumber?_of_isTermPiece (hterms x (List.mem_of_getLast? hx)) (by decide)
  | some n => exact cutNumber_append terms (readNumber?_words " LIMIT " (min n maxRows))

/-- An offset is read, and cut off from what stands before it; there is none when nothing is passed
over. -/
theorem cutNumber_offsetPart :
    ∃ passed : Option Nat, passed.getD 0 = min (offset.getD 0) maxRows ∧
      cutNumber " OFFSET " (terms ++ limitPart limit ++ offsetPart offset) =
        (passed, terms ++ limitPart limit) := by
  have hnone : cutNumber " OFFSET " (terms ++ limitPart limit) =
      (none, terms ++ limitPart limit) := by
    refine cutNumber_of_last fun x hx => ?_
    cases limit with
    | none =>
        rw [limitPart, List.append_nil] at hx
        exact readNumber?_of_isTermPiece (hterms x (List.mem_of_getLast? hx)) (by decide)
    | some n =>
        rw [limitPart, words, List.getLast?_concat] at hx
        obtain rfl := Option.some.inj hx
        exact readNumber?_offset_limit _
  cases offset with
  | none => exact ⟨none, by simp, by rw [offsetPart, List.append_nil, hnone]⟩
  | some n =>
      cases n with
      | zero => exact ⟨none, by simp, by rw [offsetPart, List.append_nil, hnone]⟩
      | succ n =>
          exact ⟨some (min (n + 1) maxRows), rfl,
            cutNumber_append _ (readNumber?_words " OFFSET " (min (n + 1) maxRows))⟩

theorem beginsOrder_of_mem_tail {x : Piece}
    (h : x ∈ terms ++ limitPart limit ++ offsetPart offset) : beginsOrder x = false := by
  rcases List.mem_append.mp h with h | h
  · rcases List.mem_append.mp h with h | h
    · exact beginsOrder_of_isTermPiece (hterms x h)
    · cases limit with
      | none => cases h
      | some n =>
          obtain rfl := List.mem_singleton.mp h
          exact beginsOrder_of_readNumber? (by decide) (readNumber?_words " LIMIT " _)
  · cases offset with
    | none => cases h
    | some n =>
        cases n with
        | zero => cases h
        | succ n =>
            obtain rfl := List.mem_singleton.mp h
            exact beginsOrder_of_readNumber? (by decide) (readNumber?_words " OFFSET " _)

end Tail

/-- The extent of a statement that ends in the order of a plan, a limit and an offset. -/
theorem readExtent?_append (p : Plan) (front : Statement) (limit offset : Option Nat) :
    readExtent? (front ++ (orderPart p ++ (limitPart limit ++ offsetPart offset))) =
      some ⟨p.orders, limit.map (min · maxRows), min (offset.getD 0) maxRows⟩ := by
  have hterms : ∀ x ∈ orderTerms p, isTermPiece x := fun x => isTermPiece_of_mem_orderTerms
  obtain ⟨passed, hpassed, hoffset⟩ := cutNumber_offsetPart hterms limit offset
  have htail := afterOrder?_append (fun x => beginsOrder_of_mem_tail hterms limit offset) front
  rw [orderPart_eq, List.append_assoc, ← List.append_assoc (orderTerms p), readExtent?, htail]
  simp only [Option.bind_eq_bind, Option.bind_some, hoffset, cutNumber_limitPart hterms,
    readTerms?_orderTerms, hpassed, Option.pure_def]

/-! ### Filters have no limit -/

/-- No piece of a statement is a limit. -/
def IsUnlimited (s : Statement) : Prop := ∀ x ∈ s, readNumber? " LIMIT " x = none

theorem IsUnlimited.append {s t : Statement} (hs : IsUnlimited s) (ht : IsUnlimited t) :
    IsUnlimited (s ++ t) :=
  List.forall_mem_append.mpr ⟨hs, ht⟩

theorem isUnlimited_words {text : String} (h : readNumber? " LIMIT " (.words text) = none) :
    IsUnlimited (words text) :=
  List.forall_mem_singleton.mpr h

theorem isUnlimited_listed {separator : String} {parts : List Statement}
    (h : readNumber? " LIMIT " (.words separator) = none)
    (hparts : ∀ s ∈ parts, IsUnlimited s) : IsUnlimited (listed separator parts) := by
  intro x hx
  rcases mem_listed hx with rfl | ⟨s, hs, hmem⟩
  · exact h
  · exact hparts s hs x hmem

theorem isUnlimited_condition (e : Entity) (call : Call) :
    IsUnlimited (condition e mainAlias call) := by
  have hcolumn (name : String) : IsUnlimited (column mainAlias name) :=
    (isUnlimited_words (by decide)).append (List.forall_mem_singleton.mpr rfl)
  have hoperand (name : String) : IsUnlimited (operand e mainAlias name) := by
    refine (hcolumn name).append ?_
    split
    · exact nofun
    · exact isUnlimited_words (by decide)
  have hparam (value : Value) (type : Option String) : IsUnlimited [.param value type] :=
    List.forall_mem_singleton.mpr rfl
  unfold condition
  split
  · exact (hcolumn _).append (isUnlimited_words (by decide))
  · exact (hcolumn _).append (isUnlimited_words (by decide))
  · exact ((hcolumn _).append (isUnlimited_words (by decide))).append (hparam _ _)
  · next name op value _ _ _ =>
      refine ((hoperand name).append (isUnlimited_words ?_)).append (hparam _ _)
      cases op <;> decide
  · split <;> exact isUnlimited_words (by decide)
  · refine (((hoperand _).append ?_).append ?_).append (isUnlimited_words (by decide))
    · split <;> exact isUnlimited_words (by decide)
    · refine isUnlimited_listed (by decide) fun s hs => ?_
      obtain ⟨value, -, rfl⟩ := List.mem_map.mp hs
      exact hparam _ _
  · refine (hcolumn _).append ?_
    split <;> exact isUnlimited_words (by decide)
  · exact nofun

theorem isUnlimited_wherePart (p : Plan) : IsUnlimited (wherePart p) := by
  unfold wherePart
  split
  · exact nofun
  · refine (isUnlimited_words (by decide)).append (isUnlimited_listed (by decide) fun s hs => ?_)
    obtain ⟨call, -, rfl⟩ := List.mem_map.mp hs
    exact isUnlimited_condition p.entity call

/-! ### What statements ask for -/

/-- A statement with the given extent asks for rows in an order, and of any rows that are in order
for those that `cut` gives, as long as there are no more than a database can count. -/
def AsksForWindow (extent : Option Extent) (orders : List (String × Bool))
    (cut : (α : Type) → List α → List α) : Prop :=
  ∃ x, extent = some x ∧ x.orders = orders ∧
    ∀ (α : Type) (rows : List α), rows.length ≤ maxRows → x.cut rows = cut α rows

/-- Bounds beyond the largest count of rows can be lowered to it. -/
theorem Extent.cut_min {α : Type} {rows : List α} (h : rows.length ≤ maxRows)
    (orders : List (String × Bool)) (limit : Option Nat) (offset : Nat) :
    Extent.cut ⟨orders, limit.map (min · maxRows), min offset maxRows⟩ rows =
      limited limit (rows.drop offset) := by
  have hdrop : rows.drop (min offset maxRows) = rows.drop offset :=
    List.drop_eq_drop_iff.mpr (by omega)
  rw [cut, hdrop]
  cases limit with
  | none => rfl
  | some n =>
      have hrest : (rows.drop offset).length ≤ maxRows :=
        Nat.le_trans (List.length_drop ▸ Nat.sub_le _ _) h
      show (rows.drop offset).take (min n maxRows) = (rows.drop offset).take n
      exact List.take_eq_take_iff.mpr (by omega)

/-- The statement that reads rows asks for them in the order of the plan, and for those of its
window, or up to its own limit when there is none. -/
theorem asksForWindow_select (m : Model) (p : Plan) (columns : List String)
    (window : Option (Nat × Nat)) :
    AsksForWindow (readExtent? (select m p columns window)) p.orders fun _ rows =>
      limited ((window.map Prod.fst).or p.calls.limit?)
        (rows.drop ((window.map Prod.snd).getD 0)) := by
  let front := words "SELECT " ++ listed ", " (outputParts m p columns) ++ words " FROM " ++
    table p.entity ++ words (" " ++ mainAlias) ++ wherePart p
  have hselect : select m p columns window = front ++ (orderPart p ++
      (limitPart ((window.map Prod.fst).or p.calls.limit?) ++
        offsetPart (window.map Prod.snd))) := by
    rw [select_eq]
    simp only [front, List.append_assoc]
  refine ⟨_, (congrArg readExtent? hselect).trans (readExtent?_append p front _ _), rfl, ?_⟩
  exact fun _ _ h => Extent.cut_min h _ _ _

/-- The rows that are removed by their keys are those whose keys are read. -/
theorem readRemoval?_keys (schema table key : String) (inner : Statement) :
    readRemoval? (.words "DELETE FROM " :: .name schema :: .words "." :: .name table ::
      .words " WHERE " :: .name key :: .words " IN (SELECT " :: (inner ++ [.words ")"])) =
        readExtent? inner := by
  show (match (inner ++ [Piece.words ")"]).getLast? with
    | some (.words ")") => readExtent? (inner ++ [Piece.words ")"]).dropLast
    | _ => none) = _
  rw [List.getLast?_concat, List.dropLast_concat]
  rfl

/-- The statement that removes rows asks for them up to the limit of the plan, in its order if there
is a limit. -/
theorem asksForWindow_deleteRows (p : Plan) :
    AsksForWindow (readRemoval? (deleteRows p)) (if p.calls.limit?.isSome then p.orders else [])
      fun _ rows => limited p.calls.limit? rows := by
  unfold deleteRows
  cases p.calls.limit? with
  | none =>
      have hlimit : cutNumber " LIMIT " (wherePart p) = (none, wherePart p) :=
        cutNumber_of_last fun x hx => isUnlimited_wherePart p x (List.mem_of_getLast? hx)
      have hread := congrArg (fun cut : Option Nat × Statement => some (Extent.mk [] cut.1 0))
        hlimit
      simp only [List.append_assoc]
      exact ⟨_, hread, rfl, fun _ _ _ => rfl⟩
  | some limit =>
      let front := column mainAlias p.entity.primaryKey ++ words " FROM " ++ table p.entity ++
        words (" " ++ mainAlias) ++ wherePart p
      have hread := (readRemoval?_keys p.entity.schema p.entity.table p.entity.primaryKey
        (front ++ (orderPart p ++ (limitPart (some limit) ++ offsetPart none)))).trans
          (readExtent?_append p front (some limit) none)
      refine ⟨_, Eq.trans (congrArg readRemoval? ?_) hread, rfl, ?_⟩
      · simp only [front, List.append_assoc]
        rfl
      · intro _ rows h
        exact Extent.cut_min h _ _ _

/-! ### Both stores -/

section Open

variable {d : Database} (hopen : d.link.isOpen) (p : Plan) (columns : List String)
include hopen

/-- The rows of a plan are asked for with one statement. -/
theorem Store.Database.get_sent :
    (Storage.get p columns d).2.sent = d.sent ++ [select d.model p columns none] :=
  congrArg (·.2.sent) (Database.askRows_apply hopen _)

theorem Store.Database.delete_sent : (Storage.delete p d).2.sent = d.sent ++ [deleteRows p] :=
  congrArg (·.2.sent) (Database.delete_apply hopen p)

/-- A count is asked for with one statement, whatever the reply is. -/
theorem Store.Database.askCount_snd (s : Statement) : (Database.askCount s d).2 = d.told [s] := by
  have hsend := Database.send_apply hopen s
  unfold Database.askCount
  cases hread : (d.link.reply 0).read with
  | error cause =>
      rw [hread] at hsend
      rw [Action.bind_apply_of_error (congrArg Prod.fst hsend), hsend]
  | ok rows =>
      rw [hread] at hsend
      rw [Action.bind_apply_of_ok (congrArg Prod.fst hsend), hsend]
      cases rows.countOf <;> rfl

/-- The rows of a page are asked for after their count, if this is given. -/
theorem Store.Database.paginate_sent (perPage page : Nat) {total : Nat}
    (htotal : (Database.askCount (countRows p) d).1 = .ok total) :
    (Storage.paginate p columns perPage page d).2.sent =
      d.sent ++ [countRows p,
        select d.model p columns (some (perPage, Page.offset perPage page))] := by
  have hnext := Database.askRows_apply (d := d.told [countRows p]) (by simpa using hopen)
    (select d.model p columns (some (perPage, Page.offset perPage page)))
  have hpaginate : Storage.paginate p columns perPage page d =
      (Database.askCount (countRows p) >>= fun total =>
        (Database.askRows (select d.model p columns
          (some (perPage, Page.offset perPage page)))).mapValue fun rows =>
            Page.of rows total perPage (max page 1)) d := rfl
  rw [hpaginate, Action.bind_apply_of_ok htotal, Database.askCount_snd hopen, Action.mapValue,
    hnext]
  exact congrArg (·.sent) (d.told_told [countRows p] _)

end Open

/-- The rows of the entity of a plan that pass its filters, as they stand in the table. -/
def Store.Memory.matching (m : Memory) (p : Plan) : List Record :=
  (m.rows p.entity.id).filter (passesAll p)

theorem Store.Memory.length_selected (m : Memory) (p : Plan) :
    (m.selected p).length = (m.matching p).length :=
  List.length_mergeSort _

/-- Whether they keep rows in memory or in a database, stores give out the same ones of the rows
that match a plan, in the same order: what a database is asked for is what a store in memory takes
of its rows. -/
theorem stores_read_same_window (p : Plan) (columns : List String) {perPage : Nat} (page : Nat)
    (hperPage : 1 ≤ perPage) :
    -- all rows of the plan
    ((∀ d : Database, d.link.isOpen →
        ∃ s, (Storage.get p columns d).2.sent = d.sent ++ [s] ∧
          AsksForWindow (readExtent? s) p.orders fun _ => limited p.calls.limit?) ∧
      ∀ m : Memory, (Storage.get p columns m).1 =
        .ok ((limited p.calls.limit? (sortRows p.orders (m.matching p))).map
          (m.shown p columns))) ∧
    -- the rows on a page
    ((∀ (d : Database) (total : Nat), d.link.isOpen →
        (Database.askCount (countRows p) d).1 = .ok total →
        ∃ s, (Storage.paginate p columns perPage page d).2.sent = d.sent ++ [countRows p, s] ∧
          AsksForWindow (readExtent? s) p.orders fun _ => Page.window perPage page) ∧
      ∀ m : Memory, (Storage.paginate p columns perPage page m).1 =
        .ok (Page.of ((Page.window perPage page (sortRows p.orders (m.matching p))).map
          (m.shown p columns)) (m.matching p).length perPage (max page 1))) ∧
    -- the rows that are removed
    ((∀ d : Database, d.link.isOpen →
        ∃ s, (Storage.delete p d).2.sent = d.sent ++ [s] ∧
          AsksForWindow (readRemoval? s) (if p.calls.limit?.isSome then p.orders else [])
            fun _ => limited p.calls.limit?) ∧
      ∀ m : Memory,
        (Storage.delete p m).1 =
          .ok (limited p.calls.limit? (sortRows p.orders (m.matching p))).length ∧
        (Storage.delete p m).2.rows p.entity.id = (m.rows p.entity.id).filter fun row =>
          !(limited p.calls.limit? (sortRows p.orders (m.matching p))).any fun removed =>
            Memory.hasKey p.entity (Record.cell removed p.entity.primaryKey) row) := by
  refine ⟨⟨?_, ?_⟩, ⟨?_, ?_⟩, ⟨?_, ?_⟩⟩
  · intro d hopen
    refine ⟨_, Database.get_sent hopen p columns, ?_⟩
    exact asksForWindow_select d.model p columns none
  · intro m
    exact Memory.get_fst p columns m
  · intro d total hopen htotal
    refine ⟨_, Database.paginate_sent hopen p columns perPage page htotal, ?_⟩
    obtain ⟨x, hx, horders, hcut⟩ :=
      asksForWindow_select d.model p columns (some (perPage, Page.offset perPage page))
    refine ⟨x, hx, horders, fun α rows h => ?_⟩
    show x.cut rows = (rows.drop (Page.offset perPage page)).take (max perPage 1)
    rw [hcut α rows h, Nat.max_eq_left hperPage]
    rfl
  · intro m
    rw [Memory.paginate_fst, Memory.length_selected]
    rfl
  · intro d hopen
    exact ⟨_, Database.delete_sent hopen p, asksForWindow_deleteRows p⟩
  · intro m
    have hrows := Memory.deleteRows_rows_self (m.record "delete" p) p
    simp only [Memory.record_rows, List.any_map] at hrows
    have hcount : ((m.record "delete" p).deleteRows p).1 =
        (limited p.calls.limit? (selection p (m.rows p.entity.id))).length := by
      rw [Memory.deleteRows, Memory.record_rows]
    exact ⟨congrArg Except.ok hcount, hrows⟩

/-- The second page of two of the books by title, with an unknown direction and limits that do not
matter for a page. -/
theorem stores_read_same_window_books :
    let p : Plan := ⟨Bookshop.books,
      [.orderBy "title" "DESC", .orderBy "id" "sideways", .take 7, .take 1]⟩
    let d : Database := ⟨Bookshop.model,
      .replies [.rows { columns := [("count", "int8")], cells := [[.ofInt 3]] }], []⟩
    let m := Bookshop.store "secret"
    (∃ s, (Storage.paginate p ["title"] 2 2 d).2.sent = [countRows p, s] ∧
      s.text = "SELECT main.\"title\" AS \"title\" FROM \"public\".\"books\" main " ++
        "ORDER BY main.\"title\" DESC LIMIT 2 OFFSET 2" ∧
      AsksForWindow (readExtent? s) [("title", true)] fun _ => Page.window 2 2) ∧
    (Storage.paginate p ["title"] 2 2 m).1 =
      .ok (Page.of ((Page.window 2 2 (sortRows [("title", true)] (m.rows "books"))).map
        (m.shown p ["title"])) 3 2 2) := by
  intro p d m
  obtain ⟨-, ⟨hasked, hpage⟩, -⟩ := @stores_read_same_window p ["title"] 2 2 (by decide)
  obtain ⟨s, hsent, hasks⟩ := hasked d 3 rfl rfl
  obtain rfl := (List.cons.inj (List.cons.inj hsent).2).1
  exact ⟨⟨_, hsent, by decide +kernel, hasks⟩, hpage m⟩

end EntityService
