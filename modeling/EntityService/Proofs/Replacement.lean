import EntityService.Proofs.Agreement
import EntityService.Proofs.Rendering
import Mathlib.Data.List.Forall2
import Mathlib.Tactic.SplitIfs

/-!
# Replaced names and values

The statements that are made for the same plan or the same data with other names of columns and
other values.

## Main definitions

* `Interchangeable` — the same name, or two names that are not declared
* `Call.Alike`, `Job.Alike` — calls and jobs that differ in names and values only
* `Job.places` — the names of a job that are not declared, in the order of its text

## Main results

* `agree_condition`, `agree_orderTerm`, `agree_output` — the parts of a plan agree
* `agree_statement` — the statements of jobs that are alike agree but for undeclared names

## Design notes

A declared name decides what a statement says: the types of its parameters, whether it is compared
as text, which timestamps are set.  A name that is not declared decides nothing, so it can be
replaced by any other one.  The star of a projection is no name, and the primary key is left out of
a change, so both stay what they are.
-/

namespace EntityService.Sql

open EntityService.Json EntityService.Model EntityService.Query Statement

/-! ### Names and values that are replaced -/

/-- The same name, or two names that an entity does not declare. -/
def Interchangeable (e : Entity) (a b : String) : Prop :=
  a = b ∨ e.column? a = none ∧ e.column? b = none

/-- Related names of which both or none is a name with a meaning of its own. -/
def Besides (special : String) (R : String → String → Prop) (a b : String) : Prop :=
  R a b ∧ (a = special ↔ b = special)

/-- Calls that differ in names of columns, which are related, and in values.  Lists of values have
the same length, and comparisons for equality are with null in both calls or in none. -/
inductive Call.Alike (R : String → String → Prop) : Call → Call → Prop where
  | compare {a b : String} (op : Comparison) {v w : Value} (h : R a b)
      (hnull : op = .eq ∨ op = .notEq → v.isNull = w.isNull) :
      Alike R (.compare a op v) (.compare b op w)
  | oneOf {a b : String} {vs ws : List Value} (negated : Bool) (h : R a b)
      (hlength : vs.length = ws.length) : Alike R (.oneOf a vs negated) (.oneOf b ws negated)
  | nullness {a b : String} (isNull : Bool) (h : R a b) :
      Alike R (.nullness a isNull) (.nullness b isNull)
  | orderBy {a b : String} (direction : String) (h : R a b) :
      Alike R (.orderBy a direction) (.orderBy b direction)
  | load (relation : String) : Alike R (.load relation) (.load relation)
  | count (relation : String) : Alike R (.count relation) (.count relation)
  | take (limit : Nat) : Alike R (.take limit) (.take limit)

/-- Data with related keys and any values. -/
abbrev DataAlike (R : String → String → Prop) (data data' : Record) : Prop :=
  List.Forall₂ (fun member member' => R member.1 member'.1) data data'

/-- Jobs that differ in names of columns, which are related, and in values.  The star of a
projection and the primary key among the keys of data are no names to replace. -/
inductive Job.Alike (R : String → String → Prop) : Job → Job → Prop where
  | select (m : Model) (e : Entity) (window : Option (Nat × Nat)) {calls calls' : Calls}
      {columns columns' : List String} (hcalls : List.Forall₂ (Call.Alike R) calls calls')
      (hcolumns : List.Forall₂ (Besides "*" R) columns columns') :
      Alike R (.select m ⟨e, calls⟩ columns window) (.select m ⟨e, calls'⟩ columns' window)
  | count (e : Entity) {calls calls' : Calls}
      (hcalls : List.Forall₂ (Call.Alike R) calls calls') :
      Alike R (.count ⟨e, calls⟩) (.count ⟨e, calls'⟩)
  | delete (e : Entity) {calls calls' : Calls}
      (hcalls : List.Forall₂ (Call.Alike R) calls calls') :
      Alike R (.delete ⟨e, calls⟩) (.delete ⟨e, calls'⟩)
  | insert (e : Entity) {data data' : Record} (hdata : DataAlike R data data') :
      Alike R (.insert e data) (.insert e data')
  | update (e : Entity) (id id' : Value) (touch : Bool) {data data' : Record}
      (hdata : DataAlike (Besides e.primaryKey R) data data') :
      Alike R (.update e id data touch) (.update e id' data' touch)

/-! ### Their places in the text -/

/-- A name that an entity does not declare. -/
def undeclared (e : Entity) (name : String) : List String :=
  if (e.column? name).isSome then [] else [name]

/-- The undeclared name in the condition of a call. -/
def Call.place (e : Entity) : Call → List String
  | .compare name _ _ => undeclared e name
  | .oneOf _ [] _ => []
  | .oneOf name _ _ => undeclared e name
  | .nullness name _ => undeclared e name
  | _ => []

/-- The undeclared names in the conditions of a plan. -/
def filterPlaces (p : Plan) : List String := p.calls.filters.flatMap (Call.place p.entity)

/-- The undeclared names in the order of a plan. -/
def orderPlaces (p : Plan) : List String :=
  p.calls.directedOrders.flatMap fun order => undeclared p.entity order.1

/-- The undeclared names of a projection, each of which stands for a column and for its name in the
result. -/
def projectionPlaces (e : Entity) (columns : List String) : List String :=
  if selectsAll columns then [] else columns.flatMap fun c => undeclared e c ++ undeclared e c

/-- The undeclared names among the keys that are written. -/
def keyPlaces (e : Entity) (data : Record) : List String :=
  data.flatMap fun member => undeclared e member.1

/-- The undeclared names of a job, in the order in which they stand in the text of its statement. -/
def Job.places : Job → List String
  | .select _ p columns _ => projectionPlaces p.entity columns ++ filterPlaces p ++ orderPlaces p
  | .count p => filterPlaces p
  | .delete p => filterPlaces p ++ if p.calls.limit?.isSome then orderPlaces p else []
  | .insert e data => keyPlaces e (e.writable data)
  | .update e _ data _ =>
    keyPlaces e (Record.keep (e.writable data) fun key => key != e.primaryKey)

/-! ### What a store sees of calls that are alike -/

section Calls

variable {R : String → String → Prop} {calls calls' : Calls}

theorem forall₂_filters (h : List.Forall₂ (Call.Alike R) calls calls') :
    List.Forall₂ (Call.Alike R) calls.filters calls'.filters := by
  refine List.rel_filter (fun call call' hcall => ?_) h
  cases hcall <;> rfl

/-- A view that sees the same of calls that are alike. -/
theorem filterMap_eq_of_alike {α : Type} {view : Call → Option α}
    (hview : ∀ {call call'}, Call.Alike R call call' → view call = view call')
    (h : List.Forall₂ (Call.Alike R) calls calls') :
    calls.filterMap view = calls'.filterMap view := by
  induction h with
  | nil => rfl
  | cons hcall _ ih => rw [List.filterMap_cons, List.filterMap_cons, hview hcall, ih]

theorem relations_eq_of_alike (h : List.Forall₂ (Call.Alike R) calls calls') :
    calls.relations = calls'.relations := by
  refine congrArg List.eraseDups (filterMap_eq_of_alike (fun hcall => ?_) h)
  cases hcall <;> rfl

theorem counts_eq_of_alike (h : List.Forall₂ (Call.Alike R) calls calls') :
    calls.counts = calls'.counts := by
  refine congrArg List.eraseDups (filterMap_eq_of_alike (fun hcall => ?_) h)
  cases hcall <;> rfl

theorem limit?_eq_of_alike (h : List.Forall₂ (Call.Alike R) calls calls') :
    calls.limit? = calls'.limit? := by
  refine congrArg List.getLast? (filterMap_eq_of_alike (fun hcall => ?_) h)
  cases hcall <;> rfl

/-- Orders are of related columns and in the same directions. -/
theorem forall₂_directedOrders (h : List.Forall₂ (Call.Alike R) calls calls') :
    List.Forall₂ (fun order order' => R order.1 order'.1 ∧ order.2 = order'.2)
      calls.directedOrders calls'.directedOrders := by
  unfold Calls.directedOrders Calls.orders
  induction h with
  | nil => exact .nil
  | cons hcall _ ih =>
      cases hcall with
      | orderBy direction hname =>
          simp only [List.filterMap_cons, Call.order?]
          cases SortKey.readDirection? direction with
          | none => exact ih
          | some descending => exact .cons ⟨hname, rfl⟩ ih
      | _ => exact ih

end Calls

/-! ### Parts of statements that are alike -/

section Parts

variable {e : Entity} {a b : String}

theorem agree_name (h : Interchangeable e a b) :
    Statement.AgreeBut [.name a] [.name b] (undeclared e a) (undeclared e b) := by
  unfold undeclared
  rcases h with rfl | ⟨ha, hb⟩
  · split
    · exact .refl _
    · exact .name a a .nil
  · rw [ha, hb]
    exact .name a b .nil

theorem Interchangeable.column?_eq (h : Interchangeable e a b) : e.column? a = e.column? b := by
  rcases h with rfl | ⟨ha, hb⟩
  · rfl
  · rw [ha, hb]

theorem agree_column (rowAlias : String) (h : Interchangeable e a b) :
    Statement.AgreeBut (column rowAlias a) (column rowAlias b) (undeclared e a) (undeclared e b) :=
  .same _ (agree_name h)

theorem agree_operand (rowAlias : String) (h : Interchangeable e a b) :
    Statement.AgreeBut (operand e rowAlias a) (operand e rowAlias b) (undeclared e a)
      (undeclared e b) := by
  unfold operand Entity.declares
  rw [h.column?_eq]
  exact (agree_column rowAlias h).append_same _

theorem agree_placeholder (h : Interchangeable e a b) (v w : Value) :
    Statement.AgreeBut (placeholder e a v) (placeholder e b w) [] [] := by
  unfold placeholder
  rw [h.column?_eq]
  exact .param v w _ .nil

theorem agree_output (rowAlias : String) (h : Interchangeable e a b) :
    Statement.AgreeBut (output rowAlias a (e.column? a)) (output rowAlias b (e.column? b))
      (undeclared e a ++ undeclared e a) (undeclared e b ++ undeclared e b) := by
  unfold output
  rw [h.column?_eq]
  exact ((agree_column rowAlias h).append_same _).append (agree_name h)

theorem agree_orderTerm (rowAlias : String) {order order' : String × Bool}
    (h : Interchangeable e order.1 order'.1) (hdirection : order.2 = order'.2) :
    Statement.AgreeBut (orderTerm rowAlias order) (orderTerm rowAlias order')
      (undeclared e order.1) (undeclared e order'.1) := by
  unfold orderTerm
  rw [hdirection]
  exact (agree_column rowAlias h).append_same _

theorem agree_placeholders (h : Interchangeable e a b) {vs ws : List Value}
    (hlength : vs.length = ws.length) :
    AgreeAllBut (vs.map (placeholder e a)) (ws.map (placeholder e b)) [] [] := by
  induction vs generalizing ws with
  | nil =>
      obtain rfl := List.length_eq_zero_iff.mp hlength.symm
      exact .nil
  | cons v vs ih =>
      obtain ⟨w, ws, rfl⟩ := List.exists_cons_of_length_eq_add_one hlength.symm
      exact .cons (agree_placeholder h v w) (ih (Nat.succ.inj hlength))

theorem agree_condition (rowAlias : String) {call call' : Call}
    (h : Call.Alike (Interchangeable e) call call') :
    Statement.AgreeBut (condition e rowAlias call) (condition e rowAlias call') (Call.place e call)
      (Call.place e call') := by
  cases h with
  | @compare a b op v w hname hnull =>
      have heq : (v.isNull ∧ op = .eq) ↔ (w.isNull ∧ op = .eq) :=
        and_congr_left fun hop => by rw [hnull (.inl hop)]
      have hne : (v.isNull ∧ op = .notEq) ↔ (w.isNull ∧ op = .notEq) :=
        and_congr_left fun hop => by rw [hnull (.inr hop)]
      have hcolumn := agree_column rowAlias hname
      simp only [condition_compare, heq, hne]
      split_ifs
      · exact (hcolumn.append_same _).append_values (.param v w none .nil)
      · exact hcolumn.append_same _
      · exact hcolumn.append_same _
      · exact ((agree_operand rowAlias hname).append_same _).append_values
          (agree_placeholder hname v w)
  | @oneOf a b vs ws negated hname hlength =>
      cases vs with
      | nil =>
          obtain rfl := List.length_eq_zero_iff.mp hlength.symm
          exact .refl _
      | cons v vs =>
          obtain ⟨w, ws, rfl⟩ := List.exists_cons_of_length_eq_add_one hlength.symm
          have hvalues := (agree_placeholders hname hlength).listed ", "
          exact (((agree_operand rowAlias hname).append_same _).append_values hvalues).append_same _
  | nullness isNull hname => exact (agree_column rowAlias hname).append_same _
  | _ => exact .refl _

end Parts

section Plans

variable {e : Entity} {calls calls' : Calls}

theorem agree_wherePart (h : List.Forall₂ (Call.Alike (Interchangeable e)) calls calls') :
    Statement.AgreeBut (wherePart ⟨e, calls⟩) (wherePart ⟨e, calls'⟩) (filterPlaces ⟨e, calls⟩)
      (filterPlaces ⟨e, calls'⟩) := by
  have hfilters := forall₂_filters h
  unfold wherePart filterPlaces
  generalize calls.filters = filters at hfilters
  generalize calls'.filters = filters' at hfilters
  have hconditions := (AgreeAllBut.map (condition e mainAlias) (Call.place e) (fun _ _ hcall =>
    agree_condition mainAlias hcall) hfilters).listed " AND "
  cases hfilters with
  | nil => exact .refl _
  | cons _ _ => exact hconditions.same_append _

theorem agree_orderPart (h : List.Forall₂ (Call.Alike (Interchangeable e)) calls calls') :
    Statement.AgreeBut (orderPart ⟨e, calls⟩) (orderPart ⟨e, calls'⟩) (orderPlaces ⟨e, calls⟩)
      (orderPlaces ⟨e, calls'⟩) := by
  have horders := forall₂_directedOrders h
  unfold orderPart orderPlaces
  generalize calls.directedOrders = orders at horders
  generalize calls'.directedOrders = orders' at horders
  have hterms := (AgreeAllBut.map (orderTerm mainAlias) (fun order => undeclared e order.1)
    (fun _ _ horder => agree_orderTerm mainAlias horder.1 horder.2) horders).listed ", "
  cases horders with
  | nil => exact .refl _
  | cons _ _ => exact hterms.same_append _

/-- A projection that takes every column stays one. -/
theorem selectsAll_eq {columns columns' : List String} {R : String → String → Prop}
    (h : List.Forall₂ (Besides "*" R) columns columns') :
    selectsAll columns = selectsAll columns' := by
  have hcontains : columns.contains "*" = columns'.contains "*" := by
    induction h with
    | nil => rfl
    | @cons a b _ _ hname _ ih =>
        have hstar : ("*" == a) = ("*" == b) := by
          rw [Bool.eq_iff_iff, beq_iff_eq, beq_iff_eq, eq_comm, hname.2, eq_comm]
        rw [List.contains_cons, List.contains_cons, hstar, ih]
  unfold selectsAll
  rw [hcontains]
  cases h <;> rfl

theorem agree_projection (rowAlias : String) {columns columns' : List String}
    (h : List.Forall₂ (Besides "*" (Interchangeable e)) columns columns') :
    AgreeAllBut (projection e rowAlias columns) (projection e rowAlias columns')
      (projectionPlaces e columns) (projectionPlaces e columns') := by
  unfold projection projectionPlaces
  rw [selectsAll_eq h]
  cases selectsAll columns' with
  | false => exact AgreeAllBut.map _ _ (fun _ _ hname => agree_output rowAlias hname.1) h
  | true => exact AgreeAllBut.nil.append_same _

/-! ### Statements of jobs that are alike -/

theorem agree_select (m : Model) (window : Option (Nat × Nat)) {columns columns' : List String}
    (hcalls : List.Forall₂ (Call.Alike (Interchangeable e)) calls calls')
    (hcolumns : List.Forall₂ (Besides "*" (Interchangeable e)) columns columns') :
    Statement.AgreeBut (select m ⟨e, calls⟩ columns window) (select m ⟨e, calls'⟩ columns' window)
      (Job.select m ⟨e, calls⟩ columns window).places
      (Job.select m ⟨e, calls'⟩ columns' window).places := by
  have houtputs := (((agree_projection mainAlias hcolumns).append_same (subqueries mainAlias 0
    (relationForest m e calls'.relations)).1).append_same (countSubqueries m e (subqueries mainAlias
      0 (relationForest m e calls'.relations)).2 calls'.counts)).listed ", "
  have hwhere := agree_wherePart hcalls
  have horder := agree_orderPart hcalls
  unfold select
  simp only [relations_eq_of_alike hcalls, counts_eq_of_alike hcalls, limit?_eq_of_alike hcalls]
  exact ((((((((houtputs.same_append _).append_same _).append_same _).append_same _).append
    hwhere)).append horder).append_same _).append_same _

theorem agree_countRows (hcalls : List.Forall₂ (Call.Alike (Interchangeable e)) calls calls') :
    Statement.AgreeBut (countRows ⟨e, calls⟩) (countRows ⟨e, calls'⟩)
      (filterPlaces ⟨e, calls⟩) (filterPlaces ⟨e, calls'⟩) :=
  (agree_wherePart hcalls).same_append _

theorem agree_deleteRows (hcalls : List.Forall₂ (Call.Alike (Interchangeable e)) calls calls') :
    Statement.AgreeBut (deleteRows ⟨e, calls⟩) (deleteRows ⟨e, calls'⟩)
      (Job.delete ⟨e, calls⟩).places (Job.delete ⟨e, calls'⟩).places := by
  have hwhere := agree_wherePart hcalls
  have horder := agree_orderPart hcalls
  unfold deleteRows Job.places
  simp only [limit?_eq_of_alike hcalls]
  cases calls'.limit? with
  | none =>
      have hdelete := hwhere.same_append
        (words "DELETE FROM " ++ table e ++ words (" AS " ++ mainAlias))
      simpa using hdelete
  | some limit =>
      exact (((hwhere.same_append _).append horder).append_same _).append_same _

end Plans

section Writing

variable {e : Entity} {data data' : Record}

/-- Assignments to interchangeable columns, of any values or by the clock. -/
def Assignment.Alike (e : Entity) (a a' : Assignment) : Prop :=
  Interchangeable e a.column a'.column ∧ a.value.isSome = a'.value.isSome

theorem forall₂_keep {R : String → String → Prop} {test : String → Bool}
    (htest : ∀ a b, R a b → test a = test b) (h : DataAlike R data data') :
    DataAlike R (Record.keep data test) (Record.keep data' test) := by
  refine List.rel_filter (fun member member' hname => ?_) h
  change test member.1 = true ↔ test member'.1 = true
  rw [htest _ _ hname]

/-- What is written of data that are alike. -/
theorem forall₂_writable {R : String → String → Prop} (hR : ∀ a b, R a b → Interchangeable e a b)
    (h : DataAlike R data data') : DataAlike R (e.writable data) (e.writable data') := by
  refine forall₂_keep (fun a b hname => ?_) h
  unfold Entity.takesKey Entity.declares
  rw [(hR a b hname).column?_eq]

/-- A declared column is a key of both data or of none. -/
theorem has_eq_of_alike (h : DataAlike (Interchangeable e) data data') {column : String}
    (hcolumn : e.declares column) : Record.has data column = Record.has data' column := by
  unfold Record.has Record.get?
  induction h with
  | nil => rfl
  | @cons member member' rest rest' hname _ ih =>
      have hkey : (column == member.1) = (column == member'.1) := by
        rcases hname with heq | ⟨hnone, hnone'⟩
        · rw [heq]
        · have hne : ∀ {key}, e.column? key = none → (column == key) = false := by
            intro key hkey
            rw [beq_eq_false_iff_ne]
            rintro rfl
            simp [Entity.declares, hkey] at hcolumn
          rw [hne hnone, hne hnone']
      change (List.lookup column ((member.1, member.2) :: rest)).isSome =
        (List.lookup column ((member'.1, member'.2) :: rest')).isSome
      rw [List.lookup_cons, List.lookup_cons, hkey]
      cases column == member'.1 with
      | false => exact ih
      | true => rfl

theorem stamps_eq_of_alike (h : DataAlike (Interchangeable e) data data') (column : String) :
    e.stamps column data = e.stamps column data' := by
  unfold Entity.stamps
  cases hcolumn : e.declares column with
  | false => rfl
  | true => rw [has_eq_of_alike h hcolumn]

theorem forall₂_given (h : DataAlike (Interchangeable e) data data') :
    List.Forall₂ (Assignment.Alike e) (given data) (given data') := by
  rw [given, given, List.forall₂_map_left_iff, List.forall₂_map_right_iff]
  exact h.imp fun _ _ hname => ⟨hname, rfl⟩

theorem alike_refl (assignments : List Assignment) :
    List.Forall₂ (Assignment.Alike e) assignments assignments :=
  List.forall₂_same.mpr fun _ _ => ⟨.inl rfl, rfl⟩

theorem forall₂_insertion (h : DataAlike (Interchangeable e) data data') :
    List.Forall₂ (Assignment.Alike e) (insertion e data) (insertion e data') := by
  unfold insertion
  simp only [stamps_eq_of_alike h]
  exact List.rel_append (forall₂_given (forall₂_writable (fun _ _ => id) h)) (alike_refl _)

theorem forall₂_change (touch : Bool)
    (h : DataAlike (Besides e.primaryKey (Interchangeable e)) data data') :
    List.Forall₂ (Assignment.Alike e) (change e data touch) (change e data' touch) := by
  have hnames : DataAlike (Interchangeable e) data data' := h.imp fun _ _ hname => hname.1
  have hkept : DataAlike (Besides e.primaryKey (Interchangeable e))
      (Record.keep (e.writable data) fun key => key != e.primaryKey)
      (Record.keep (e.writable data') fun key => key != e.primaryKey) := by
    refine forall₂_keep (fun a b hname => ?_) (forall₂_writable (fun _ _ hname => hname.1) h)
    rw [Bool.eq_iff_iff, bne_iff_ne, bne_iff_ne]
    exact not_congr hname.2
  unfold change
  rw [stamps_eq_of_alike hnames]
  exact List.rel_append (forall₂_given (hkept.imp fun _ _ hname => hname.1)) (alike_refl _)

/-- The undeclared columns of assignments are keys of the data, as timestamps are declared. -/
theorem flatMap_undeclared_given_append (data : Record) {timestamps : List Assignment}
    (h : ∀ a ∈ timestamps, e.declares a.column) :
    ((given data ++ timestamps).flatMap fun a => undeclared e a.column) = keyPlaces e data := by
  have htimestamps : (timestamps.flatMap fun a => undeclared e a.column) = [] :=
    List.flatMap_eq_nil_iff.mpr fun a ha => if_pos (h a ha)
  rw [List.flatMap_append, htimestamps, List.append_nil, given, List.flatMap_map]
  rfl

theorem places_insertion (data : Record) :
    ((insertion e data).flatMap fun a => undeclared e a.column) =
      keyPlaces e (e.writable data) := by
  refine flatMap_undeclared_given_append _ (List.forall_mem_map.mpr ?_)
  intro column hcolumn
  exact (Bool.and_eq_true_iff.mp (List.mem_filter.mp hcolumn).2).1

theorem places_change (data : Record) (touch : Bool) :
    ((change e data touch).flatMap fun a => undeclared e a.column) =
      keyPlaces e (Record.keep (e.writable data) fun key => key != e.primaryKey) := by
  refine flatMap_undeclared_given_append _ ?_
  intro a ha
  split at ha
  · next htouch =>
      obtain rfl := List.mem_singleton.mp ha
      exact (Bool.and_eq_true_iff.mp (Bool.and_eq_true_iff.mp htouch).2).1
  · cases ha

theorem agree_source {a a' : Assignment} (h : a.Alike e a') :
    Statement.AgreeBut (a.source e) (a'.source e) [] [] := by
  obtain ⟨column, value⟩ := a
  obtain ⟨column', value'⟩ := a'
  obtain ⟨hname, hvalue⟩ := h
  cases value with
  | none =>
      cases value' with
      | none => exact .refl _
      | some w => cases hvalue
  | some v =>
      cases value' with
      | none => cases hvalue
      | some w => exact agree_placeholder hname v w

theorem agree_sources {assignments assignments' : List Assignment}
    (h : List.Forall₂ (Assignment.Alike e) assignments assignments') :
    AgreeAllBut (assignments.map (Assignment.source e)) (assignments'.map (Assignment.source e))
      [] [] := by
  induction h with
  | nil => exact .nil
  | cons ha _ ih => exact .cons (agree_source ha) ih

theorem agree_insert (h : DataAlike (Interchangeable e) data data') :
    Statement.AgreeBut (insert e data) (insert e data') (keyPlaces e (e.writable data))
      (keyPlaces e (e.writable data')) := by
  have hassignments := forall₂_insertion h
  unfold insert
  rw [← places_insertion, ← places_insertion]
  generalize insertion e data = assignments at hassignments
  generalize insertion e data' = assignments' at hassignments
  have hcolumns := (AgreeAllBut.map (fun a : Assignment => [.name a.column])
    (fun a : Assignment => undeclared e a.column) (fun _ _ ha => agree_name ha.1)
    hassignments).listed ", "
  have hsources := (agree_sources hassignments).listed ", "
  cases hassignments with
  | nil => exact .refl _
  | cons ha hrest =>
      refine (Statement.AgreeBut.same_append ?_ _).append_same _ |>.append_same _
      exact (((hcolumns.same_append _).append_same _).append_values hsources).append_same _

theorem agree_update (id id' : Value) (touch : Bool)
    (h : DataAlike (Besides e.primaryKey (Interchangeable e)) data data') :
    Statement.AgreeBut (update e id data touch) (update e id' data' touch)
      (keyPlaces e (Record.keep (e.writable data) fun key => key != e.primaryKey))
      (keyPlaces e (Record.keep (e.writable data') fun key => key != e.primaryKey)) := by
  have hassignments := forall₂_change touch h
  have hkey : Statement.AgreeBut
      (column mainAlias e.primaryKey ++ words " = " ++ placeholder e e.primaryKey id)
      (column mainAlias e.primaryKey ++ words " = " ++ placeholder e e.primaryKey id') [] [] :=
    (agree_placeholder (.inl rfl) id id').same_append _
  unfold update
  rw [← places_change data touch, ← places_change data' touch]
  generalize change e data touch = assignments at hassignments
  generalize change e data' touch = assignments' at hassignments
  have hsets := (AgreeAllBut.map
    (fun a : Assignment => [.name a.column, .words " = "] ++ a.source e)
    (fun a : Assignment => undeclared e a.column) (fun _ _ ha =>
      ((agree_name ha.1).append_same [.words " = "]).append_values (agree_source ha))
    hassignments).listed ", "
  cases hassignments with
  | nil => exact hkey.same_append _
  | cons ha hrest =>
      exact ((((hsets.same_append _).append_same _).append_values hkey).append_same _).append_same _

end Writing

/-- The statements of jobs that are alike agree but for the undeclared names. -/
theorem agree_statement {job job' : Job} (h : job.Alike (Interchangeable job.entity) job') :
    Statement.AgreeBut job.statement job'.statement job.places job'.places := by
  cases h with
  | select m e window hcalls hcolumns => exact agree_select m window hcalls hcolumns
  | count e hcalls => exact agree_countRows hcalls
  | delete e hcalls => exact agree_deleteRows hcalls
  | insert e hdata => exact agree_insert hdata
  | update e id id' touch hdata => exact agree_update id id' touch hdata

end EntityService.Sql
