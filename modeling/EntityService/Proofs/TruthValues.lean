import EntityService.Proofs.Bookshop
import EntityService.Proofs.Wildcards
import EntityService.Sql.Condition
import EntityService.Store.Selection

/-!
# Filters and the truth of conditions

A store in memory keeps the rows that pass a filter, a database those for which the condition of the
filter is true.  In the language of the database a condition on null is neither true nor false but
unknown, and the two agree on when a row is kept, apart from two cases.

## Main definitions

* `Truth` — the truth values of conditions
* `Predicate`, `readCondition?` — what a condition says, read from its pieces
* `Predicate.truth` — the truth of what a condition says about a row
* `Strays` — a row passes a filter although the condition is unknown

## Main results

* `readCondition?_condition` — what the condition of a filter says
* `passes_iff_truth` — when a row passes a filter
* `filters_stray` — the two cases are there

## Design notes

The truth of a condition is read from the pieces that are written into the statement, so it does not
depend on how a store in memory reads the filter.  The types to which the two sides of a comparison
are converted are passed over: values that are not null are put in order by `compareCells?`, and
texts have the forms that `isLike` says.
-/

namespace EntityService

open EntityService.Json EntityService.Model EntityService.Query EntityService.Sql
open EntityService.Store

/-! ## Truth values -/

/-- The truth of a condition. -/
inductive Truth where
  | holds | fails | unknown
  deriving DecidableEq, Repr

namespace Truth

/-- The truth of something that is known. -/
def ofBool : Bool → Truth
  | true => holds
  | false => fails

/-- What fails as it is holds when it is negated; the unknown stays unknown. -/
def not : Truth → Truth
  | holds => fails
  | fails => holds
  | unknown => unknown

/-- One of the two holds, both fail, or it is not known whether one of them holds. -/
def or : Truth → Truth → Truth
  | holds, _ => holds
  | _, holds => holds
  | fails, fails => fails
  | _, _ => unknown

/-- One of several holds. -/
def anyOf (truths : List Truth) : Truth := truths.foldr or fails

theorem ofBool_eq_holds_iff (b : Bool) : ofBool b = holds ↔ b = true := by
  cases b <;> decide

theorem ofBool_eq_fails_iff (b : Bool) : ofBool b = fails ↔ b = false := by
  cases b <;> decide

theorem eq_unknown_iff (t : Truth) : t = unknown ↔ t ≠ holds ∧ t ≠ fails := by
  cases t <;> decide

theorem not_eq_holds_iff (t : Truth) : t.not = holds ↔ t = fails := by
  cases t <;> decide

theorem or_eq_holds_iff (t u : Truth) : t.or u = holds ↔ t = holds ∨ u = holds := by
  cases t <;> cases u <;> decide

theorem or_eq_fails_iff (t u : Truth) : t.or u = fails ↔ t = fails ∧ u = fails := by
  cases t <;> cases u <;> decide

theorem anyOf_eq_holds_iff (truths : List Truth) : anyOf truths = holds ↔ holds ∈ truths := by
  induction truths with
  | nil => simp [anyOf]
  | cons t rest ih =>
      show t.or (anyOf rest) = holds ↔ _
      rw [or_eq_holds_iff, ih, List.mem_cons, eq_comm]

theorem anyOf_eq_fails_iff (truths : List Truth) :
    anyOf truths = fails ↔ ∀ t ∈ truths, t = fails := by
  induction truths with
  | nil => simp [anyOf]
  | cons t rest ih =>
      show t.or (anyOf rest) = fails ↔ _
      rw [or_eq_fails_iff, ih, List.forall_mem_cons]

end Truth

/-! ## What conditions say -/

/-- What a condition says about the rows that it is about. -/
inductive Predicate where
  | always (value : Bool)
  | isNull (column : String) (negated : Bool)
  | compares (column : String) (op : Comparison) (value : Value)
  | isIn (column : String) (values : List Value) (negated : Bool)
  deriving Repr

/-- The parameters of a list up to its closing bracket. -/
def readList? : Statement → Option (List Value)
  | [.param v _, .words ")"] => some [v]
  | .param v _ :: .words ", " :: rest => (readList? rest).map (v :: ·)
  | _ => none

/-- What is said about a column by an operator and the values after it. -/
def readOperation? (column : String) : Statement → Option Predicate
  | .words " IN (" :: rest => (readList? rest).map fun values => .isIn column values false
  | .words " NOT IN (" :: rest => (readList? rest).map fun values => .isIn column values true
  | [.words operator, .param v _] =>
    (Comparison.all.find? fun op => " " ++ op.sql ++ " " == operator).map fun op =>
      .compares column op v
  | _ => none

/-- What is said about a column, which may be converted to a text first. -/
def readPredicate? (column : String) : Statement → Option Predicate
  | [.words " IS NULL"] => some (.isNull column false)
  | [.words " IS NOT NULL"] => some (.isNull column true)
  | [.words "::text LIKE ", .param v _] => some (.compares column .like v)
  | .words "::text" :: rest => readOperation? column rest
  | rest => readOperation? column rest

/-- What a condition says about the rows known by an alias. -/
def readCondition? (rowAlias : String) : Statement → Option Predicate
  | [.words "TRUE"] => some (.always true)
  | [.words "FALSE"] => some (.always false)
  | .words qualifier :: .name column :: rest =>
    if qualifier = rowAlias ++ "." then readPredicate? column rest else none
  | _ => none

/-- The orders of two values that an operator asks for. -/
def Query.Comparison.asksFor : Comparison → Ordering → Bool
  | .eq, order => order == .eq
  | .notEq, order => order == .lt || order == .gt
  | .gt, order => order == .gt
  | .lt, order => order == .lt
  | .gte, order => order == .gt || order == .eq
  | .lte, order => order == .lt || order == .eq
  | .like, _ => false

/-- The truth of a comparison: it is unknown with null on either side, and otherwise a matter of the
order of the two, or of the form of a text. -/
def comparisonTruth (cell : Value) (op : Comparison) (value : Value) : Truth :=
  if cell.isNull || value.isNull then .unknown
  else match op with
    | .like => .ofBool (isLike value.plainText.toList cell.plainText.toList)
    | op => .ofBool ((compareCells? cell value).any op.asksFor)

/-- The truth of what a condition says about a row.  A key that the row does not have is null. -/
def Predicate.truth (row : Record) : Predicate → Truth
  | always value => .ofBool value
  | isNull column negated => .ofBool ((Record.cell row column).isNull != negated)
  | compares column op value => comparisonTruth (Record.cell row column) op value
  | isIn column values negated =>
    let found := Truth.anyOf (values.map (comparisonTruth (Record.cell row column) .eq))
    if negated then found.not else found

/-! ### The conditions of filters -/

/-- What the condition of a filter says. -/
def Query.Call.predicate : Call → Predicate
  | .compare column op value =>
    if value.isNull ∧ op = .eq then .isNull column false
    else if value.isNull ∧ op = .notEq then .isNull column true
    else .compares column op value
  | .oneOf _ [] negated => .always negated
  | .oneOf column values negated => .isIn column values negated
  | .nullness column isNull => .isNull column !isNull
  | _ => .always true

theorem readList?_listed (e : Entity) (name : String) (v : Value) (rest : List Value) :
    readList? (listed ", " ((v :: rest).map (placeholder e name)) ++ words ")") =
      some (v :: rest) := by
  induction rest generalizing v with
  | nil =>
      rw [List.map_singleton, listed_singleton]
      rfl
  | cons w rest ih =>
      rw [List.map_cons, List.map_cons, listed_cons_cons]
      show (readList? (listed ", " (placeholder e name w :: rest.map (placeholder e name)) ++
        words ")")).map (v :: ·) = _
      rw [← List.map_cons, ih]
      rfl

/-- The column of a comparison is read whether it is converted or not. -/
theorem readCondition?_operand (e : Entity) (name : String) {rest : Statement}
    {predicate : Predicate} (hplain : readPredicate? name rest = some predicate)
    (htext : readOperation? name rest = some predicate) :
    readCondition? mainAlias (operand e mainAlias name ++ rest) = some predicate := by
  unfold operand
  split
  · exact hplain
  · exact htext

theorem readCondition?_comparison (e : Entity) (name : String) (op : Comparison) (value : Value) :
    readCondition? mainAlias (operand e mainAlias name ++ words (" " ++ op.sql ++ " ") ++
      placeholder e name value) = some (.compares name op value) := by
  have hread : readOperation? name (words (" " ++ op.sql ++ " ") ++ placeholder e name value) =
      some (.compares name op value) := by
    cases op <;> rfl
  have hplain : readPredicate? name (words (" " ++ op.sql ++ " ") ++ placeholder e name value) =
      some (.compares name op value) := by
    cases op <;> rfl
  rw [List.append_assoc]
  exact readCondition?_operand e name hplain hread

/-- The condition of a filter is read as what the filter is about. -/
theorem readCondition?_condition (e : Entity) {call : Call} (hfilter : call.isFilter) :
    readCondition? mainAlias (condition e mainAlias call) = some call.predicate := by
  cases call with
  | compare name op value =>
      rw [condition_compare, Call.predicate]
      by_cases hlike : op = .like
      · rw [if_pos hlike, hlike, if_neg (by simp), if_neg (by simp)]
        rfl
      · rw [if_neg hlike]
        split
        · rfl
        · split
          · rfl
          · exact readCondition?_comparison e name op value
  | oneOf name values negated =>
      cases values with
      | nil => cases negated <;> rfl
      | cons v rest =>
          have hlist := readList?_listed e name v rest
          show readCondition? mainAlias (operand e mainAlias name ++
            words (if negated then " NOT IN (" else " IN (") ++
            listed ", " ((v :: rest).map (placeholder e name)) ++ words ")") = _
          rw [List.append_assoc, List.append_assoc]
          cases negated with
          | false =>
              have hread : readOperation? name (words " IN (" ++
                  (listed ", " ((v :: rest).map (placeholder e name)) ++ words ")")) =
                  some (.isIn name (v :: rest) false) := congrArg (Option.map _) hlist
              exact readCondition?_operand e name hread hread
          | true =>
              have hread : readOperation? name (words " NOT IN (" ++
                  (listed ", " ((v :: rest).map (placeholder e name)) ++ words ")")) =
                  some (.isIn name (v :: rest) true) := congrArg (Option.map _) hlist
              exact readCondition?_operand e name hread hread
  | nullness name isNull => cases isNull <;> rfl
  | _ => cases hfilter

/-! ## When a row passes a filter -/

/-- A row passes a filter although its condition is unknown: a cell that spells null is compared
with null as a pattern, or a cell that has none of the values is compared with null among them. -/
def Strays (row : Record) : Call → Prop
  | .compare column .like value =>
    value.isNull ∧ (Record.cell row column).isNull = false ∧
      (Record.cell row column).plainText = "null"
  | .oneOf column values true =>
    (Record.cell row column).isNull = false ∧ (∃ v ∈ values, v.isNull) ∧
      ∀ v ∈ values, sameCell (Record.cell row column) v = false
  | _ => False

section Cell

variable {cell : Value}

/-- Null compares with nothing. -/
theorem sameCell_eq_false_of_isNull {v : Value} (h : v.isNull) : sameCell cell v = false := by
  rw [sameCell, compareCells?, h, Bool.or_true, if_pos rfl]
  rfl

/-- Where nothing is null, a comparison is true when it is passed. -/
theorem comparisonTruth_eq (cell : Value) (op : Comparison) (value : Value) :
    comparisonTruth cell op value =
      if cell.isNull || value.isNull then .unknown else .ofBool (compares cell op value) := by
  unfold comparisonTruth
  split
  · rfl
  · next hknown =>
      obtain ⟨hcell, hvalue⟩ : cell.isNull = false ∧ value.isNull = false := by
        simpa using hknown
      cases op with
      | like => simp [compares, cellIsLike, hcell]
      | _ =>
          simp only [compares, hvalue]
          cases compareCells? cell value with
          | none => rfl
          | some order => cases order <;> rfl

theorem comparisonTruth_eq_holds_iff (op : Comparison) (value : Value) :
    comparisonTruth cell op value = .holds ↔
      cell.isNull = false ∧ value.isNull = false ∧ compares cell op value := by
  rw [comparisonTruth_eq]
  cases cell.isNull <;> cases value.isNull <;> simp [Truth.ofBool_eq_holds_iff]

/-- An equality holds when the two are the same. -/
theorem equality_eq_holds_iff (hcell : cell.isNull = false) (v : Value) :
    comparisonTruth cell .eq v = .holds ↔ sameCell cell v := by
  cases hnull : v.isNull with
  | true => simp [comparisonTruth_eq, hnull, sameCell_eq_false_of_isNull hnull]
  | false => simp [comparisonTruth_eq, compares, hcell, hnull, Truth.ofBool_eq_holds_iff, sameCell]

/-- An equality fails when the two are not null and not the same. -/
theorem equality_eq_fails_iff (hcell : cell.isNull = false) (v : Value) :
    comparisonTruth cell .eq v = .fails ↔ v.isNull = false ∧ sameCell cell v = false := by
  cases hnull : v.isNull with
  | true => simp [comparisonTruth_eq, hnull]
  | false => simp [comparisonTruth_eq, compares, hcell, hnull, Truth.ofBool_eq_fails_iff, sameCell]

/-- Nothing passes a comparison with null, unless it asks for null or has null for a pattern. -/
theorem compares_eq_false_of_isNull {op : Comparison} {value : Value}
    (h : cell.isNull ∨ value.isNull) (hequality : op = .eq ∨ op = .notEq → value.isNull = false)
    (hlike : op = .like → cell.isNull) : compares cell op value = false := by
  have hnone : compareCells? cell value = none := by
    rw [compareCells?, if_pos (by simpa using h)]
  cases op with
  | like => simp [compares, cellIsLike, hlike rfl]
  | eq => simp [compares, hequality (.inl rfl), hnone]
  | notEq => simp [compares, hequality (.inr rfl), hnone]
  | _ => simp [compares, hnone]

/-- The null is taken for its text when it is a pattern. -/
theorem compares_like_of_isNull {value : Value} (h : value.isNull) :
    compares cell .like value ↔ cell.isNull = false ∧ cell.plainText = "null" := by
  cases value with
  | null =>
      have hplain : ∀ p ∈ "null".toList, p ≠ '%' ∧ p ≠ '_' := by simp
      show (!cell.isNull && isLike "null".toList cell.plainText.toList) = true ↔ _
      rw [Bool.and_eq_true, isLike_iff_eq hplain, Bool.not_eq_true', String.toList_inj]
  | _ => cases h

/-- A comparison that does not ask for null is passed when it is true, or has null for a pattern. -/
theorem compares_iff_truth {op : Comparison} {value : Value}
    (hequality : op = .eq ∨ op = .notEq → value.isNull = false) :
    compares cell op value ↔ comparisonTruth cell op value = .holds ∨
      (op = .like ∧ value.isNull ∧ cell.isNull = false ∧ cell.plainText = "null") := by
  rw [comparisonTruth_eq_holds_iff]
  cases hvalue : value.isNull with
  | true =>
      by_cases hlike : op = .like
      · subst hlike
        simp [compares_like_of_isNull hvalue]
      · have hfalse : compares cell op value = false :=
          compares_eq_false_of_isNull (.inr hvalue) hequality fun h => absurd h hlike
        simp [hlike, hfalse]
  | false =>
      cases hcell : cell.isNull with
      | true =>
          simp [compares_eq_false_of_isNull (.inl hcell) hequality fun _ => hcell]
      | false => simp

/-- No equality with null is known. -/
theorem equality_eq_unknown (hcell : cell.isNull) (v : Value) :
    comparisonTruth cell .eq v = .unknown := by
  simp [comparisonTruth_eq, hcell]

/-- A cell that is not null has one of the values when an equality with one of them is true. -/
theorem anyOf_equality_eq_holds_iff (hcell : cell.isNull = false) (values : List Value) :
    Truth.anyOf (values.map (comparisonTruth cell .eq)) = .holds ↔
      values.any (sameCell cell) := by
  rw [Truth.anyOf_eq_holds_iff, List.mem_map, List.any_eq_true]
  exact exists_congr fun v => and_congr_right fun _ => equality_eq_holds_iff hcell v

theorem anyOf_equality_eq_fails_iff (hcell : cell.isNull = false) (values : List Value) :
    Truth.anyOf (values.map (comparisonTruth cell .eq)) = .fails ↔
      ∀ v ∈ values, v.isNull = false ∧ sameCell cell v = false := by
  rw [Truth.anyOf_eq_fails_iff, List.forall_mem_map]
  exact forall₂_congr fun v _ => equality_eq_fails_iff hcell v

/-- It is unknown whether null is one of several values. -/
theorem anyOf_equality_eq_unknown (hcell : cell.isNull) {values : List Value}
    (hvalues : values ≠ []) :
    Truth.anyOf (values.map (comparisonTruth cell .eq)) = .unknown := by
  have hunknown : ∀ t ∈ values.map (comparisonTruth cell .eq), t = .unknown :=
    List.forall_mem_map.mpr fun v _ => equality_eq_unknown hcell v
  obtain ⟨v, hv⟩ := List.exists_mem_of_ne_nil values hvalues
  rw [Truth.eq_unknown_iff]
  constructor
  · rw [Ne, Truth.anyOf_eq_holds_iff]
    intro hholds
    exact absurd (hunknown _ hholds) (by decide)
  · rw [Ne, Truth.anyOf_eq_fails_iff]
    intro hfails
    have hmem := List.mem_map_of_mem (f := comparisonTruth cell .eq) hv
    exact absurd ((hunknown _ hmem).symm.trans (hfails _ hmem)) (by decide)

/-- A cell is one of several values when that is true. -/
theorem isOneOf_iff_truth {values : List Value} (hvalues : values ≠ []) :
    isOneOf cell values false ↔
      Truth.anyOf (values.map (comparisonTruth cell .eq)) = .holds := by
  have hempty : values.isEmpty = false := by simpa using hvalues
  rw [isOneOf, hempty, if_neg Bool.false_ne_true]
  cases hcell : cell.isNull with
  | true => simp [anyOf_equality_eq_unknown hcell hvalues]
  | false => simp [anyOf_equality_eq_holds_iff hcell]

/-- A cell is none of several values when that is true, or when null is all that it is compared with
in vain. -/
theorem isNoneOf_iff_truth {values : List Value} (hvalues : values ≠ []) :
    isOneOf cell values true ↔
      (Truth.anyOf (values.map (comparisonTruth cell .eq))).not = .holds ∨
        (cell.isNull = false ∧ (∃ v ∈ values, v.isNull) ∧
          ∀ v ∈ values, sameCell cell v = false) := by
  have hempty : values.isEmpty = false := by simpa using hvalues
  rw [isOneOf, hempty, if_neg Bool.false_ne_true, Truth.not_eq_holds_iff]
  cases hcell : cell.isNull with
  | true => simp [anyOf_equality_eq_unknown hcell hvalues]
  | false =>
      rw [anyOf_equality_eq_fails_iff hcell]
      by_cases hnull : ∃ v ∈ values, v.isNull
      · -- an equality with null never fails, so the row is kept in vain
        obtain ⟨v, hv, hvnull⟩ := hnull
        have hknown : ¬∀ v ∈ values, v.isNull = false ∧ sameCell cell v = false := by
          intro hall
          rw [(hall v hv).1] at hvnull
          cases hvnull
        have hexists : ∃ v ∈ values, v.isNull := ⟨v, hv, hvnull⟩
        simp [hknown, hexists]
      · have hknown : ∀ v ∈ values, v.isNull = false := by simpa using hnull
        simp only [hnull, false_and, and_false, or_false]
        simp only [Bool.not_false, Bool.true_and, bne_iff_ne, ne_eq, Bool.not_eq_true,
          List.any_eq_false]
        exact forall₂_congr fun v hv => by simp [hknown v hv]

/-- It is unknown whether a cell is none of several values when null is among them and no other one
is the same. -/
theorem not_anyOf_equality_eq_unknown {values : List Value} (hcell : cell.isNull = false)
    (hnull : ∃ v ∈ values, v.isNull) (hother : ∀ v ∈ values, sameCell cell v = false) :
    (Truth.anyOf (values.map (comparisonTruth cell .eq))).not = .unknown := by
  have hunknown : Truth.anyOf (values.map (comparisonTruth cell .eq)) = .unknown := by
    rw [Truth.eq_unknown_iff]
    constructor
    · rw [Ne, anyOf_equality_eq_holds_iff hcell, List.any_eq_true]
      rintro ⟨v, hv, hsame⟩
      rw [hother v hv] at hsame
      cases hsame
    · rw [Ne, anyOf_equality_eq_fails_iff hcell]
      intro hfails
      obtain ⟨v, hv, hvnull⟩ := hnull
      rw [(hfails v hv).1] at hvnull
      cases hvnull
  rw [hunknown]
  rfl

end Cell

/-- A row passes a filter exactly when the condition of the filter is true of it, or it strays; and
then the condition is unknown. -/
theorem passes_iff_truth (e : Entity) (row : Record) {call : Call} (hfilter : call.isFilter) :
    ∃ predicate, readCondition? mainAlias (condition e mainAlias call) = some predicate ∧
      (passes row call ↔ predicate.truth row = .holds ∨ Strays row call) ∧
      (Strays row call → predicate.truth row = .unknown) := by
  refine ⟨call.predicate, readCondition?_condition e hfilter, ?_⟩
  cases call with
  | compare column op value =>
      rw [Call.predicate]
      split
      · next hnull =>
          obtain ⟨hnull, rfl⟩ := hnull
          simp [passes, compares, hnull, Predicate.truth, Truth.ofBool_eq_holds_iff, Strays]
      · next heq =>
          split
          · next hnull =>
              obtain ⟨hnull, rfl⟩ := hnull
              simp [passes, compares, hnull, Predicate.truth, Truth.ofBool_eq_holds_iff, Strays]
          · next hne =>
              have hequality : op = .eq ∨ op = .notEq → value.isNull = false := by
                rintro (rfl | rfl)
                · simpa using heq
                · simpa using hne
              have hstrays : Strays row (.compare column op value) ↔
                  op = .like ∧ value.isNull ∧ (Record.cell row column).isNull = false ∧
                    (Record.cell row column).plainText = "null" := by
                cases op <;> simp [Strays]
              rw [hstrays]
              refine ⟨compares_iff_truth hequality, ?_⟩
              rintro ⟨-, hnull, -, -⟩
              simp [Predicate.truth, comparisonTruth_eq, hnull]
  | oneOf column values negated =>
      cases values with
      | nil => cases negated <;> simp [passes, isOneOf, Call.predicate, Predicate.truth,
          Truth.ofBool, Strays]
      | cons v rest =>
          have hvalues : v :: rest ≠ [] := List.cons_ne_nil v rest
          cases negated with
          | false =>
              refine ⟨?_, False.elim⟩
              exact (isOneOf_iff_truth hvalues).trans (iff_of_eq (or_false _)).symm
          | true =>
              refine ⟨isNoneOf_iff_truth hvalues, ?_⟩
              rintro ⟨hcell, hnull, hother⟩
              exact not_anyOf_equality_eq_unknown hcell hnull hother
  | nullness column isNull =>
      refine ⟨?_, False.elim⟩
      show ((Record.cell row column).isNull == isNull) = true ↔
        Truth.ofBool ((Record.cell row column).isNull != !isNull) = .holds ∨ False
      rw [Truth.ofBool_eq_holds_iff]
      cases (Record.cell row column).isNull <;> cases isNull <;> simp
  | _ => cases hfilter

/-- A book with another title is none of those with a title. -/
theorem passes_iff_truth_books :
    let row := Bookshop.book 1 1 "Harvest"
    let call : Call := .oneOf "title" [.string "Lathe"] true
    ∃ predicate, readCondition? mainAlias (condition Bookshop.books mainAlias call) =
      some predicate ∧ predicate.truth row = .holds := by
  intro row call
  have hfilter : call.isFilter := rfl
  obtain ⟨predicate, hread, hpasses, -⟩ := passes_iff_truth Bookshop.books row hfilter
  have hstrays : ¬Strays row call := by
    rintro ⟨-, ⟨v, hv, hnull⟩, -⟩
    obtain rfl := List.mem_singleton.mp hv
    cases hnull
  exact ⟨predicate, hread, (hpasses.mp (by decide +kernel)).resolve_right hstrays⟩

/-- A text that spells null is kept when it is to be none of several values with null among them,
and when it is to have null for a form, although both are unknown. -/
theorem filters_stray :
    let row : Record := [("title", .string "null")]
    ∀ call ∈ [Call.oneOf "title" [.string "Lathe", .null] true, .compare "title" .like .null],
      passes row call ∧
        (readCondition? mainAlias (condition Bookshop.books mainAlias call)).map
          (Predicate.truth row) = some .unknown := by
  decide +kernel

end EntityService
