import EntityService.Proofs.Insertions
import EntityService.Sql.Buffer

/-!
# What is built in a buffer

The steps that build a statement over a buffer give the text and the parameters of the statement
that is made of pieces.

## Main definitions

* `Pushes` — what steps give and which values they put into the buffer, from any buffer
* `Renders` — steps that write a statement
* `Job.render` — what is built for a job

## Main results

* `Pushes.bind`, `Renders.mapM` — steps after each other
* `renders_whereText`, `renders_insertText`, … — the steps of each statement
* `render_eq` — what is built for a job is its statement, unless the numbers run out

## Design notes

Steps are described by the number that the next parameter gets.  That number is one more than the
length of the buffer as long as this has 32 bits, which each step preserves or fails.
-/

namespace EntityService.Sql

open EntityService.Json EntityService.Model EntityService.Query Statement
open Buffer hiding params

variable {α β : Type}

/-! ### Steps over a buffer -/

/-- From any buffer, steps put the given values behind its parameters and give what belongs to the
number of the first of them; they fail when a value gets no number. -/
def Pushes (build : Building α) (values : List Value) (result : Nat → α) : Prop :=
  ∀ b : Buffer, b.params.length < numberBound →
    build b = if b.params.length + values.length < numberBound then
      some (result (b.params.length + 1), { b with params := b.params ++ values }) else none

namespace Pushes

variable {build : Building α} {next : α → Building β} {values others : List Value}
  {result : Nat → α}

theorem pure (a : α) : Pushes (Pure.pure a) [] fun _ => a := by
  intro b hb
  rw [List.length_nil, Nat.add_zero, if_pos hb, List.append_nil]
  rfl

theorem pushParam (value : Value) : Pushes (pushParam value) [value] fun number => number := by
  intro b hb
  unfold Buffer.pushParam
  rw [Nat.mod_eq_of_lt hb, List.length_singleton]

/-- Steps after each other. -/
theorem bind (h : Pushes build values result) (result' : Nat → Nat → β)
    (hnext : ∀ number, Pushes (next (result number)) others (result' number)) :
    Pushes (build >>= next) (values ++ others) fun number =>
      result' number (number + values.length) := by
  intro b hb
  have hrun : (build >>= next) b = (build b).bind fun (a, b') => next a b' := rfl
  rw [hrun, h b hb, List.length_append]
  by_cases hlt : b.params.length + values.length < numberBound
  · have hlength : (b.params ++ values).length < numberBound := by rwa [List.length_append]
    rw [if_pos hlt, Option.bind_some]
    dsimp only
    rw [hnext _ _ hlength]
    simp only [List.length_append, List.append_assoc, Nat.add_assoc, Nat.add_comm 1]
  · rw [if_neg hlt, if_neg (by omega)]
    rfl

/-- What steps give may be changed. -/
theorem map {result' : Nat → β} {f : α → β} (h : Pushes build values result)
    (hresult : ∀ number, f (result number) = result' number) :
    Pushes (build >>= fun a => Pure.pure (f a)) values result' := by
  have hpure (number : Nat) : Pushes (Pure.pure (f (result number))) [] fun _ => result' number :=
    hresult number ▸ Pushes.pure _
  have hbind : Pushes (build >>= fun a => Pure.pure (f a)) (values ++ [])
      fun number => result' number := h.bind (fun number _ => result' number) hpure
  rwa [List.append_nil] at hbind

end Pushes

/-- Steps put the parameters of a statement into the buffer and give its text. -/
def Renders (build : Building String) (s : Statement) : Prop :=
  Pushes build s.params fun number => s.textFrom number

/-- A text without parameters. -/
theorem renders_pure {s : Statement} {text : String} (hparams : s.params = [])
    (htext : ∀ number, textFrom number s = text) : Renders (pure text) s := by
  unfold Renders
  simp only [hparams, htext]
  exact Pushes.pure text

/-- Steps whose parameters and text are those of a statement. -/
theorem Pushes.renders {build : Building α} {values : List Value} {result : Nat → α}
    {f : α → String} {s : Statement} (h : Pushes build values result) (hparams : s.params = values)
    (htext : ∀ number, textFrom number s = f (result number)) :
    Renders (build >>= fun a => Pure.pure (f a)) s := by
  unfold Renders
  rw [hparams]
  exact h.map fun number => (htext number).symm

/-- Steps that write the parts of a list, from the first to the last. -/
theorem Renders.mapM {steps : α → Building String} {part : α → Statement}
    (h : ∀ x, Renders (steps x) (part x)) (xs : List α) :
    Pushes (xs.mapM steps) ((xs.map part).flatMap params) fun number =>
      partTexts number (xs.map part) := by
  induction xs with
  | nil => exact Pushes.pure []
  | cons x rest ih =>
      rw [List.mapM_cons, List.map_cons, List.flatMap_cons]
      refine (h x).bind (fun number next => textFrom number (part x) :: partTexts next _) ?_
      exact fun number => ih.map fun _ => rfl

/-! ### Plans -/

section Columns

variable (e : Entity) (rowAlias name : String)

theorem renders_pushValue (value : Value) :
    Renders (pushValue e name value) (placeholder e name value) := by
  refine (Pushes.pushParam value).renders rfl fun number => ?_
  rw [textFrom_placeholder]
  cases e.column? name with
  | none => simp [Piece.placeholder]
  | some c => simp [Piece.placeholder, String.append_assoc]

theorem renders_conditionText (call : Call) :
    Renders (conditionText e rowAlias call) (condition e rowAlias call) := by
  fun_cases conditionText e rowAlias call
  all_goals simp only [condition]
  · exact renders_pure rfl fun number => by simp
  · exact renders_pure rfl fun number => by simp
  · refine (Pushes.pushParam _).renders rfl fun number => ?_
    simp [Piece.placeholder, ← String.append_assoc]
  · refine (renders_pushValue e _ _).renders (by simp) fun number => ?_
    simp [String.append_assoc]
  · exact renders_pure rfl fun number => textFrom_words number _
  · next negated _ =>
      have hnot : (if negated then " NOT IN (" else " IN (") =
          " " ++ (if negated then "NOT " else "") ++ "IN (" := by
        cases negated <;> rfl
      refine (Renders.mapM (renders_pushValue e _) _).renders (by simp) fun number => ?_
      simp [hnot, String.append_assoc]
  · next isNull =>
      have hnot : (if isNull then " IS NULL" else " IS NOT NULL") =
          " IS " ++ (if isNull then "" else "NOT ") ++ "NULL" := by
        cases isNull <;> rfl
      exact renders_pure rfl fun number => by simp [hnot, String.append_assoc]
  · exact renders_pure rfl fun _ => rfl

end Columns

section Plans

variable (m : Model) (p : Plan) (columns : List String) (window : Option (Nat × Nat))

theorem renders_whereText : Renders (whereText p) (wherePart p) := by
  refine (Renders.mapM (renders_conditionText p.entity mainAlias) _).renders ?_ fun number => ?_
  · unfold wherePart
    split
    · next hnone => rw [hnone]; rfl
    · rw [params_append, params_words, params_listed, List.nil_append]
  · have hempty : (partTexts number (p.calls.filters.map (condition p.entity mainAlias))).isEmpty =
        p.calls.filters.isEmpty := by
      cases p.calls.filters <;> rfl
    rw [hempty]
    unfold wherePart
    split
    · next hnone => rw [hnone]; rfl
    · next hne =>
        have hfilters : p.calls.filters ≠ [] := hne
        simp [hfilters]

theorem renders_selectText :
    Renders (selectText m p columns window) (select m p columns window) := by
  have houtputs := params_of_mem_outputParts m p columns
  refine (renders_whereText p).renders ?_ fun number => ?_
  · rw [params_select, params_wherePart]
  · rw [select_eq]
    simp only [textFrom_append, textFrom_words, textFrom_listed, textFrom_table, textFrom_orderPart,
      textFrom_limitPart, textFrom_offsetPart, partTexts_eq_map houtputs, params_words,
      params_listed, params_table, flatMap_params_eq_nil houtputs, List.length_nil, Nat.add_zero,
      String.append_assoc]
    cases window <;> rfl

theorem renders_countText : Renders (countText p) (countRows p) := by
  have hcount : "SELECT COUNT(*) AS \"count\" FROM " =
      "SELECT COUNT(*) AS " ++ quotedName "count" ++ " FROM " := by
    decide
  refine (renders_whereText p).renders ?_ fun number => ?_
  · rw [params_countRows, params_wherePart]
  · rw [countRows, hcount]
    simp [String.append_assoc]

theorem renders_deleteText : Renders (deleteText p) (deleteRows p) := by
  refine (renders_whereText p).renders ?_ fun number => ?_
  · rw [params_deleteRows, params_wherePart]
  · unfold deleteRows
    cases p.calls.limit? with
    | none => simp [String.append_assoc]
    | some limit => simp [String.append_assoc]

end Plans

/-! ### Data -/

section Data

variable (e : Entity) (id : Value) (data : Record) (touch : Bool)

theorem textFrom_returned (number : Nat) : textFrom number (returned e) = returningText e := by
  rw [returned, textFrom_listed, partTexts_eq_map (params_of_mem_projection e mainAlias [])]
  rfl

/-- What is written to the columns of a new row: the placeholders of the data, and the time for each
timestamp. -/
theorem partTexts_sources (number : Nat) :
    partTexts number ((insertion e data).map (Assignment.source e)) =
      partTexts number ((e.writable data).map fun member => placeholder e member.1 member.2) ++
        (stamped e data).map fun _ => "NOW()" := by
  have hgiven : (given (e.writable data)).map (Assignment.source e) =
      (e.writable data).map fun member => placeholder e member.1 member.2 := by
    rw [given, List.map_map]
    rfl
  have htimes (number : Nat) (columns : List String) :
      partTexts number ((columns.map fun c => ⟨c, none⟩).map (Assignment.source e)) =
        columns.map fun _ => "NOW()" := by
    rw [partTexts_eq_map (by simp [params_source]), List.map_map, List.map_map]
    rfl
  rw [insertion_eq, List.map_append, partTexts_append, hgiven, htimes]

/-- The placeholders of data have the values of the data. -/
theorem params_placeholders (data : Record) :
    (data.map fun member => placeholder e member.1 member.2).flatMap params =
      data.map Prod.snd := by
  rw [List.flatMap_map]
  exact List.flatMap_pure_eq_map Prod.snd data

theorem renders_insertText : Renders (insertText e data) (insert e data) := by
  have hsteps (member : String × Value) :
      Renders (pushValue e member.1 member.2) (placeholder e member.1 member.2) :=
    renders_pushValue e member.1 member.2
  have hreturning : (returned e).text = returningText e := textFrom_returned e 1
  have hstamped : [e.createdAt, e.updatedAt].filter (fun c => e.stamps c data) = stamped e data :=
    rfl
  have halias : " AS main" = " AS " ++ mainAlias := rfl
  refine (Renders.mapM hsteps (e.writable data)).renders ?_ fun number => ?_
  · rw [params_insert]
    exact (params_placeholders e _).symm
  · rw [textFrom_insert, partTexts_sources, columns_insertion]
    unfold insertionText
    rw [hreturning, hstamped, halias, List.isEmpty_map]
    simp only [List.isEmpty_iff, tableText, String.append_assoc]

/-- The part of a change that sets a column. -/
def setPart (a : Assignment) : Statement := [.name a.column, .words " = "] ++ a.source e

theorem params_setParts (assignments : List Assignment) :
    (assignments.map (setPart e)).flatMap params = assignedValues assignments := by
  simp [setPart, List.flatMap_map, params_source, assignedValues]

/-- The parts that set the columns of data. -/
theorem setParts_given (data : Record) :
    (given data).map (setPart e) =
      data.map fun member => setPart e ⟨member.1, some member.2⟩ := by
  rw [given, List.map_map]
  rfl

/-- What is set by a change: the columns of the data to their placeholders, and the timestamp to the
time. -/
theorem partTexts_change (number : Nat) :
    partTexts number ((change e data touch).map (setPart e)) =
      partTexts number ((given (Record.keep (e.writable data) fun key => key != e.primaryKey)).map
        (setPart e)) ++
        if touch && e.stamps e.updatedAt data then [quotedName e.updatedAt ++ " = NOW()"]
        else [] := by
  rw [change, List.map_append, partTexts_append]
  split
  · simp [partTexts, setPart, Assignment.source]
  · rfl

/-- The text of a change, with the number of its key behind those of its values. -/
theorem textFrom_update (number : Nat) :
    textFrom number (update e id data touch) =
      changeText e (partTexts number ((change e data touch).map (setPart e)))
        (textFrom (number + (assignedValues (change e data touch)).length)
          (placeholder e e.primaryKey id)) := by
  have hparts (assignments : List Assignment) : (assignments.map fun a =>
      [.name a.column, .words " = "] ++ a.source e) = assignments.map (setPart e) := rfl
  unfold update changeText
  dsimp only
  split
  · next hnone =>
      simp [hnone, partTexts, assignedValues, textFrom_returned, params_returned,
        String.append_assoc]
  · next hsome =>
      have hsets : (partTexts number ((change e data touch).map (setPart e))).isEmpty = false := by
        rw [List.isEmpty_eq_false_iff, ne_eq, ← List.length_eq_zero_iff, length_partTexts,
          List.length_map, List.length_eq_zero_iff]
        exact hsome
      rw [hparts, hsets, if_neg Bool.false_ne_true]
      simp only [textFrom_append, textFrom_words, textFrom_table, textFrom_listed, textFrom_column,
        textFrom_placeholder, textFrom_returned, params_append, params_words, params_table,
        params_listed, params_column, params_setParts, List.append_nil, List.nil_append,
        List.length_nil, Nat.add_zero, String.append_assoc]

theorem renders_updateText : Renders (updateText e id data touch) (update e id data touch) := by
  let written := Record.keep (e.writable data) fun key => key != e.primaryKey
  let touches := if touch && e.stamps e.updatedAt data then [quotedName e.updatedAt ++ " = NOW()"]
    else []
  have hsteps (member : String × Value) :
      Renders (do
        let source ← pushValue e member.1 member.2
        return quotedName member.1 ++ " = " ++ source) (setPart e ⟨member.1, some member.2⟩) := by
    refine (renders_pushValue e member.1 member.2).renders rfl fun number => ?_
    simp [setPart, Assignment.source, String.append_assoc]
  have hkey := renders_pushValue e e.primaryKey id
  have hupdate : Pushes (updateText e id data touch)
      (((given written).map (setPart e)).flatMap params ++ [id]) fun number =>
        changeText e (partTexts number ((given written).map (setPart e)) ++ touches)
          (textFrom (number + (((given written).map (setPart e)).flatMap params).length)
            (placeholder e e.primaryKey id)) := by
    rw [setParts_given]
    exact (Renders.mapM hsteps written).bind (fun number next =>
        changeText e (partTexts number (written.map fun member =>
            setPart e ⟨member.1, some member.2⟩) ++ touches)
          (textFrom next (placeholder e e.primaryKey id)))
      fun number => hkey.map fun next => rfl
  have hvalues : assignedValues (change e data touch) = assignedValues (given written) := by
    rw [assignedValues_change, ← List.append_nil (given written),
      assignedValues_given_append _ (List.forall_mem_nil _)]
  have hparams : (update e id data touch).params =
      ((given written).map (setPart e)).flatMap params ++ [id] := by
    rw [params_update, params_setParts, ← hvalues, assignedValues_change]
  unfold Renders
  simp only [textFrom_update, hparams, partTexts_change, hvalues, params_setParts] at hupdate ⊢
  exact hupdate

end Data

/-! ### Jobs -/

/-- What steps build from an empty buffer. -/
theorem Renders.finish {build : Building String} {s : Statement} (h : Renders build s) :
    finish build = if s.params.length < numberBound then some ⟨s.text, s.params⟩ else none := by
  have hempty : Buffer.empty.params.length < numberBound := by decide
  have hrun : build.run Buffer.empty = _ := h Buffer.empty hempty
  rw [Buffer.finish, hrun]
  simp only [Buffer.empty, List.length_nil, Nat.zero_add, List.nil_append]
  split <;> rfl

/-- What is built for a job. -/
def Job.render : Job → Option Buffer
  | select m p columns window => Buffer.select m p columns window
  | count p => Buffer.count p
  | delete p => Buffer.delete p
  | insert e data => Buffer.insert e data
  | update e id data touch => Buffer.update e id data touch

/-- For a job its statement is built, with its text and its parameters, as long as there are numbers
for these. -/
theorem render_eq (job : Job) :
    job.render = if job.statement.params.length < numberBound then
      some ⟨job.statement.text, job.statement.params⟩ else none := by
  cases job with
  | select m p columns window => exact (renders_selectText m p columns window).finish
  | count p => exact (renders_countText p).finish
  | delete p => exact (renders_deleteText p).finish
  | insert e data => exact (renders_insertText e data).finish
  | update e id data touch => exact (renders_updateText e id data touch).finish

end EntityService.Sql
