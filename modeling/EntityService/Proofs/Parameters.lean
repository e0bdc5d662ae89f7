import EntityService.Proofs.Rendering
import EntityService.Sql.Buffer

/-!
# Parameters of statements

The parameters of a statement are the values that it has been made for, and the texts of its parts
are numbered by the parameters before them.

## Main definitions

* `Call.operands` — the values that the condition of a call compares with
* `Job.operands` — the values that the statement for a job is sent with
* `Statement.textFrom`, `Statement.partTexts` — the texts of parts

## Main results

* `params_select`, `params_insert`, … — the parameters of each statement
* `params_statement` — the parameters of the statement for a job
* `textFrom_append`, `textFrom_listed` — the texts of parts that are put together

## Design notes

The text of a part depends on the number of parameters before it.  A part without parameters has one
text wherever it stands.
-/

namespace EntityService.Sql

open EntityService.Json EntityService.Model EntityService.Query

/-! ### The parameters of parts -/

namespace Statement

@[simp] theorem params_nil : params [] = [] := rfl

@[simp] theorem params_append (s t : Statement) : params (s ++ t) = params s ++ params t :=
  List.filterMap_append

@[simp] theorem params_words (text : String) : params (words text) = [] := rfl

@[simp] theorem params_words_cons (text : String) (s : Statement) :
    params (.words text :: s) = params s := rfl

@[simp] theorem params_name (ident : String) (s : Statement) :
    params (.name ident :: s) = params s := rfl

@[simp] theorem params_param (value : Value) (pgType : Option String) (s : Statement) :
    params (.param value pgType :: s) = value :: params s := rfl

@[simp] theorem params_listed (separator : String) (parts : List Statement) :
    params (listed separator parts) = parts.flatMap params :=
  filterMap_listed (fun _ => rfl) separator parts

/-- Parts without parameters. -/
theorem flatMap_params_eq_nil {parts : List Statement} (h : ∀ s ∈ parts, s.params = []) :
    parts.flatMap params = [] :=
  List.flatMap_eq_nil_iff.mpr h

end Statement

open Statement

section Parts

variable (m : Model) (e : Entity) (p : Plan) (rowAlias parent name : String)

@[simp] theorem params_table : (table e).params = [] := rfl

@[simp] theorem params_column : (column rowAlias name).params = [] := rfl

@[simp] theorem params_operand : (operand e rowAlias name).params = [] := by
  unfold operand
  split <;> simp

@[simp] theorem params_placeholder (value : Value) : (placeholder e name value).params = [value] :=
  rfl

theorem params_output (c : Option Column) : (output rowAlias name c).params = [] := rfl

theorem params_of_mem_projection (columns : List String) :
    ∀ s ∈ projection e rowAlias columns, s.params = [] := by
  unfold projection
  split
  · exact List.forall_mem_map.mpr fun name _ => params_output rowAlias name _
  · split
    · exact List.forall_mem_singleton.mpr rfl
    · exact List.forall_mem_map.mpr fun c _ => params_output rowAlias c.name _

@[simp] theorem params_orderPart : (orderPart p).params = [] := by
  have hterms (orders : List (String × Bool)) :
      (orders.map (orderTerm mainAlias)).flatMap params = [] :=
    flatMap_params_eq_nil (List.forall_mem_map.mpr fun _ _ => rfl)
  unfold orderPart
  split <;> simp [hterms]

@[simp] theorem params_limitPart (limit : Option Nat) : (limitPart limit).params = [] := by
  cases limit <;> rfl

@[simp] theorem params_offsetPart (offset : Option Nat) : (offsetPart offset).params = [] := by
  unfold offsetPart
  split <;> rfl

theorem params_relatedSelect (r : Relation) {columns : List Statement}
    (h : ∀ s ∈ columns, s.params = []) :
    (relatedSelect r e rowAlias parent columns).params = [] := by
  unfold relatedSelect
  split <;> simp [relatedRows, flatMap_params_eq_nil h]

theorem params_of_mem_relatedColumns : ∀ s ∈ relatedColumns e rowAlias, s.params = [] := by
  unfold relatedColumns
  split
  · exact List.forall_mem_singleton.mpr rfl
  · exact List.forall_mem_map.mpr fun c _ => params_output rowAlias c.name _

mutual
theorem params_subquery (parent : String) (used : Nat) (tree : LoadTree) :
    (subquery parent used tree).1.params = [] := by
  cases tree with
  | node r target children =>
      rw [subquery]
      refine params_relatedSelect target _ parent r (List.forall_mem_append.mpr ?_)
      exact ⟨params_of_mem_relatedColumns target _, params_of_mem_subqueries _ (used + 1) children⟩

theorem params_of_mem_subqueries (parent : String) (used : Nat) (forest : List LoadTree) :
    ∀ s ∈ (subqueries parent used forest).1, s.params = [] := by
  cases forest with
  | nil => exact nofun
  | cons tree rest =>
      cases tree with
      | node r target children =>
          rw [subqueries]
          refine List.forall_mem_cons.mpr ⟨?_, params_of_mem_subqueries parent _ rest⟩
          rw [params_append, params_subquery parent used (.node r target children)]
          rfl
end

theorem params_of_mem_countSubqueries (used : Nat) (names : List String) :
    ∀ s ∈ countSubqueries m e used names, s.params = [] := by
  induction names generalizing used with
  | nil => exact nofun
  | cons name rest ih =>
      unfold countSubqueries
      split
      · next sub hsub =>
          refine List.forall_mem_cons.mpr ⟨?_, ih _⟩
          simp only [countSubquery?, Option.bind_eq_bind, Option.bind_eq_some_iff, Option.pure_def,
            Option.some.injEq] at hsub
          obtain ⟨r, -, target, -, rfl⟩ := hsub
          rfl
      · exact ih _

end Parts

/-! ### The values of statements -/

/-- The values that the condition of a call compares a column with.  A comparison with null and a
condition on nullness have none. -/
def Call.operands : Call → List Value
  | .compare _ .eq .null => []
  | .compare _ .notEq .null => []
  | .compare _ _ value => [value]
  | .oneOf _ values _ => values
  | _ => []

theorem params_condition (e : Entity) (rowAlias : String) (call : Call) :
    (condition e rowAlias call).params = Call.operands call := by
  have hplaceholders (name : String) (values : List Value) :
      (values.map (placeholder e name)).flatMap params = values := by
    rw [List.flatMap_map]
    exact List.flatMap_singleton' values
  unfold condition
  split
  all_goals simp [Call.operands, hplaceholders]

/-- The values of the filters of a plan. -/
def planOperands (p : Plan) : List Value := p.calls.filters.flatMap Call.operands

@[simp] theorem params_wherePart (p : Plan) : (wherePart p).params = planOperands p := by
  have hconditions (filters : List Call) :
      (filters.map (condition p.entity mainAlias)).flatMap params =
        filters.flatMap Call.operands := by
    rw [List.flatMap_map]
    exact congrArg (fun f => filters.flatMap f) (funext (params_condition p.entity mainAlias))
  unfold wherePart planOperands
  split
  · next hfilters => rw [hfilters]; rfl
  · rw [params_append, params_words, params_listed, hconditions]
    rfl

theorem params_of_mem_outputParts (m : Model) (p : Plan) (columns : List String) :
    ∀ s ∈ outputParts m p columns, s.params = [] := by
  refine List.forall_mem_append.mpr ⟨List.forall_mem_append.mpr ⟨?_, ?_⟩, ?_⟩
  · exact params_of_mem_projection _ _ columns
  · exact params_of_mem_subqueries _ 0 _
  · exact params_of_mem_countSubqueries m p.entity _ _

theorem params_select (m : Model) (p : Plan) (columns : List String)
    (window : Option (Nat × Nat)) : (select m p columns window).params = planOperands p := by
  have houtputs := flatMap_params_eq_nil (params_of_mem_outputParts m p columns)
  rw [select_eq]
  simp only [params_append, params_words, params_listed, params_table, params_wherePart,
    params_orderPart, params_limitPart, params_offsetPart, houtputs, List.nil_append,
    List.append_nil]

theorem params_countRows (p : Plan) : (countRows p).params = planOperands p := by
  simp [countRows]

theorem params_deleteRows (p : Plan) : (deleteRows p).params = planOperands p := by
  unfold deleteRows
  split <;> simp

/-! ### The values that are written -/

section Writing

variable (e : Entity) (data : Record)

theorem params_source (a : Assignment) : (a.source e).params = a.value.toList := by
  unfold Assignment.source
  split
  · next value h => simp [h]
  · next h => simp [h]

theorem params_returned : (returned e).params = [] := by
  rw [returned, params_listed, flatMap_params_eq_nil (params_of_mem_projection e mainAlias [])]

/-- The values of assignments, in order. -/
def assignedValues (assignments : List Assignment) : List Value :=
  assignments.flatMap (·.value.toList)

/-- Data that are written have values, timestamps that the clock sets have none. -/
theorem assignedValues_given_append {timestamps : List Assignment}
    (h : ∀ a ∈ timestamps, a.value = none) :
    assignedValues (given data ++ timestamps) = data.map Prod.snd := by
  have htimestamps : timestamps.flatMap (·.value.toList) = [] :=
    List.flatMap_eq_nil_iff.mpr fun a ha => by rw [h a ha]; rfl
  rw [assignedValues, List.flatMap_append, htimestamps, List.append_nil, given, List.flatMap_map]
  exact List.flatMap_pure_eq_map Prod.snd data

theorem assignedValues_insertion :
    assignedValues (insertion e data) = (e.writable data).map Prod.snd :=
  assignedValues_given_append _ (List.forall_mem_map.mpr fun _ _ => rfl)

theorem assignedValues_change (touch : Bool) :
    assignedValues (change e data touch) =
      (Record.keep (e.writable data) fun key => key != e.primaryKey).map Prod.snd := by
  refine assignedValues_given_append _ ?_
  split
  · exact List.forall_mem_singleton.mpr rfl
  · exact nofun

theorem params_insert : (insert e data).params = (e.writable data).map Prod.snd := by
  rw [← assignedValues_insertion]
  unfold insert
  split
  · next hnone => simp [params_returned, hnone, assignedValues]
  · simp [params_returned, params_source, assignedValues, List.flatMap_map]

theorem params_update (id : Value) (touch : Bool) :
    (update e id data touch).params =
      (Record.keep (e.writable data) fun key => key != e.primaryKey).map Prod.snd ++ [id] := by
  rw [← assignedValues_change e data touch]
  unfold update
  dsimp only
  split
  · next hnone => simp [params_returned, hnone, assignedValues]
  · simp [params_returned, params_source, assignedValues, List.flatMap_map]

end Writing

/-! ### The values of a job -/

/-- The values that the statement for a job is made for: those of the filters of a plan, or those
that are written, followed by the key of a row to change. -/
def Job.operands : Job → List Value
  | .select _ p _ _ => planOperands p
  | .count p => planOperands p
  | .delete p => planOperands p
  | .insert e data => (e.writable data).map Prod.snd
  | .update e id data _ =>
    (Record.keep (e.writable data) fun key => key != e.primaryKey).map Prod.snd ++ [id]

theorem params_statement (job : Job) : job.statement.params = job.operands := by
  cases job with
  | select m p columns window => exact params_select m p columns window
  | count p => exact params_countRows p
  | delete p => exact params_deleteRows p
  | insert e data => exact params_insert e data
  | update e id data touch => exact params_update e data id touch

/-! ### Texts of parts -/

namespace Statement

/-- The text of a statement of which the first parameter gets the given number. -/
def textFrom (number : Nat) (s : Statement) : String := String.join (textsFrom number s)

theorem textsFrom_append (number : Nat) (s t : Statement) :
    textsFrom number (s ++ t) = textsFrom number s ++ textsFrom (number + s.params.length) t := by
  induction s generalizing number with
  | nil => rfl
  | cons x s ih =>
      cases x with
      | param value pgType =>
          show _ :: textsFrom (number + 1) (s ++ t) = _
          rw [ih, params_param, List.length_cons, Nat.add_right_comm]
          rfl
      | _ => exact congrArg _ (ih number)

@[simp] theorem textFrom_append (number : Nat) (s t : Statement) :
    textFrom number (s ++ t) = textFrom number s ++ textFrom (number + s.params.length) t := by
  apply String.toList_injective
  rw [textFrom, textsFrom_append, String.toList_append]
  simp only [textFrom, String.toList_join, List.flatMap_append]

@[simp] theorem textFrom_words (number : Nat) (text : String) :
    textFrom number (words text) = text :=
  String.toList_injective (by simp [textFrom, words, textsFrom])

@[simp] theorem textFrom_nil (number : Nat) : textFrom number [] = "" := rfl

@[simp] theorem textFrom_words_cons (number : Nat) (text : String) (s : Statement) :
    textFrom number (.words text :: s) = text ++ textFrom number s := by
  simp [textFrom, textsFrom]

@[simp] theorem textFrom_name_cons (number : Nat) (ident : String) (s : Statement) :
    textFrom number (.name ident :: s) = quotedName ident ++ textFrom number s := by
  simp [textFrom, textsFrom]

@[simp] theorem textFrom_param_cons (number : Nat) (value : Value) (pgType : Option String)
    (s : Statement) : textFrom number (.param value pgType :: s) =
      Piece.placeholder number pgType ++ textFrom (number + 1) s := by
  simp [textFrom, textsFrom]

/-- The texts of parts, whose parameters are numbered one after the other. -/
def partTexts (number : Nat) : List Statement → List String
  | [] => []
  | s :: rest => textFrom number s :: partTexts (number + s.params.length) rest

/-- The text of a list of parts. -/
@[simp] theorem textFrom_listed (number : Nat) (separator : String) (parts : List Statement) :
    textFrom number (listed separator parts) = Text.joined separator (partTexts number parts) := by
  induction parts generalizing number with
  | nil => rfl
  | cons s rest ih =>
      apply String.toList_injective
      cases rest with
      | nil => rw [listed_singleton, partTexts, partTexts, Text.toList_joined_singleton]
      | cons t rest =>
          have htail := ih (number + s.params.length)
          rw [listed_cons_cons, textFrom_append, textFrom_append, textFrom_words, params_words,
            List.length_nil, Nat.add_zero, htail, String.toList_append, String.toList_append]
          exact (Text.toList_joined_cons_cons ..).symm

/-- The number of the next parameter does not matter without parameters. -/
theorem textFrom_eq_text {s : Statement} (h : s.params = []) (number : Nat) :
    textFrom number s = s.text := by
  have htexts : textsFrom number s = textsFrom 1 s := by
    induction s with
    | nil => rfl
    | cons x s ih =>
        cases x with
        | param value pgType => cases h
        | _ => exact congrArg _ (ih h)
  rw [textFrom, htexts, text]

theorem length_partTexts (number : Nat) (parts : List Statement) :
    (partTexts number parts).length = parts.length := by
  induction parts generalizing number with
  | nil => rfl
  | cons s rest ih => exact congrArg Nat.succ (ih _)

/-- A part is numbered after the parameters of the parts before it. -/
theorem getElem?_partTexts {parts : List Statement} {i : Nat} {s : Statement}
    (h : parts[i]? = some s) (number : Nat) :
    (partTexts number parts)[i]? =
      some (textFrom (number + ((parts.take i).flatMap params).length) s) := by
  induction parts generalizing i number with
  | nil => cases h
  | cons part rest ih =>
      cases i with
      | zero =>
          obtain rfl := Option.some.inj h
          rfl
      | succ i =>
          rw [List.take_succ_cons, List.flatMap_cons, List.length_append, ← Nat.add_assoc]
          exact ih h _

theorem partTexts_append (number : Nat) (parts others : List Statement) :
    partTexts number (parts ++ others) =
      partTexts number parts ++ partTexts (number + (parts.flatMap params).length) others := by
  induction parts generalizing number with
  | nil => rfl
  | cons s rest ih =>
      rw [List.cons_append, partTexts, ih, List.flatMap_cons, List.length_append, Nat.add_assoc]
      rfl

/-- The texts of parts without parameters. -/
theorem partTexts_eq_map {parts : List Statement} (h : ∀ s ∈ parts, s.params = [])
    (number : Nat) : partTexts number parts = parts.map text := by
  induction parts generalizing number with
  | nil => rfl
  | cons s rest ih =>
      obtain ⟨hs, hrest⟩ := List.forall_mem_cons.mp h
      rw [partTexts, textFrom_eq_text hs, ih hrest, List.map_cons]

end Statement

section Parts

variable (e : Entity) (p : Plan) (number : Nat) (rowAlias name : String)

@[simp] theorem textFrom_table : textFrom number (table e) = Buffer.tableText e := by
  simp [table, Buffer.tableText, String.append_assoc]

@[simp] theorem textFrom_column :
    textFrom number (column rowAlias name) = Buffer.columnText rowAlias name := by
  simp [column, Buffer.columnText]

@[simp] theorem textFrom_operand :
    textFrom number (operand e rowAlias name) = Buffer.operandText e rowAlias name := by
  unfold operand Buffer.operandText
  split <;> simp

@[simp] theorem textFrom_placeholder (value : Value) :
    textFrom number (placeholder e name value) =
      Piece.placeholder number ((e.column? name).map (·.pgType)) := by
  simp [placeholder]

@[simp] theorem textFrom_orderPart : textFrom number (orderPart p) = (orderPart p).text :=
  textFrom_eq_text (params_orderPart p) number

@[simp] theorem textFrom_limitPart (limit : Option Nat) :
    textFrom number (limitPart limit) = (limitPart limit).text :=
  textFrom_eq_text (params_limitPart limit) number

@[simp] theorem textFrom_offsetPart (offset : Option Nat) :
    textFrom number (offsetPart offset) = (offsetPart offset).text :=
  textFrom_eq_text (params_offsetPart offset) number

end Parts

end EntityService.Sql
