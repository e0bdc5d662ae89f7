import EntityService.Proofs.Bookshop
import EntityService.Proofs.Replacement

/-!
# Names and values stay where they are put

A name that a request brings is read by the database as the content of one name, whatever its
characters are, and a value is not part of the text of a statement at all.

## Main definitions

* `namesOf` — the contents of the names among tokens

## Main results

* `Job.Alike.places_eq` — values have no place in a text
* `names_insert`, `names_update` — the keys of data are the names that are written to
* `names_and_values_confined` — names stay inside of their tokens, values outside of the text
-/

namespace EntityService.Sql

open EntityService.Json EntityService.Model EntityService.Query Statement

/-! ### Jobs that differ in values only -/

section Values

variable {R S : String → String → Prop}

theorem Call.Alike.mono (h : ∀ a b, R a b → S a b) {call call' : Call}
    (hcall : Call.Alike R call call') : Call.Alike S call call' := by
  cases hcall with
  | compare op hname hnull => exact .compare op (h _ _ hname) hnull
  | oneOf negated hname hlength => exact .oneOf negated (h _ _ hname) hlength
  | nullness isNull hname => exact .nullness isNull (h _ _ hname)
  | orderBy direction hname => exact .orderBy direction (h _ _ hname)
  | load relation => exact .load relation
  | count relation => exact .count relation
  | take limit => exact .take limit

theorem Job.Alike.mono (h : ∀ a b, R a b → S a b) {job job' : Job} (hjob : job.Alike R job') :
    job.Alike S job' := by
  have hbesides (special : String) : ∀ a b, Besides special R a b → Besides special S a b :=
    fun a b hname => ⟨h a b hname.1, hname.2⟩
  cases hjob with
  | select m e window hcalls hcolumns =>
      exact .select m e window (hcalls.imp fun _ _ => Call.Alike.mono h)
        (hcolumns.imp (hbesides "*"))
  | count e hcalls => exact .count e (hcalls.imp fun _ _ => Call.Alike.mono h)
  | delete e hcalls => exact .delete e (hcalls.imp fun _ _ => Call.Alike.mono h)
  | insert e hdata => exact .insert e (hdata.imp fun _ _ => h _ _)
  | update e id id' touch hdata =>
      exact .update e id id' touch (hdata.imp fun _ _ => hbesides e.primaryKey _ _)

theorem flatMap_eq_of_forall₂ {α β : Type} {Q : α → α → Prop} {f : α → List β}
    (hf : ∀ x y, Q x y → f x = f y) {xs ys : List α} (h : List.Forall₂ Q xs ys) :
    xs.flatMap f = ys.flatMap f := by
  induction h with
  | nil => rfl
  | cons hxy _ ih => rw [List.flatMap_cons, List.flatMap_cons, hf _ _ hxy, ih]

theorem Call.Alike.place_eq {e : Entity} {call call' : Call} (h : Call.Alike Eq call call') :
    Call.place e call = Call.place e call' := by
  cases h with
  | compare op hname hnull => exact congrArg (undeclared e) hname
  | @oneOf a b vs ws negated hname hlength =>
      cases vs with
      | nil =>
          obtain rfl := List.length_eq_zero_iff.mp hlength.symm
          rfl
      | cons v vs =>
          obtain ⟨w, ws, rfl⟩ := List.exists_cons_of_length_eq_add_one hlength.symm
          exact congrArg (undeclared e) hname
  | nullness isNull hname => exact congrArg (undeclared e) hname
  | _ => rfl

/-- Values have no place in a text. -/
theorem Job.Alike.places_eq {job job' : Job} (h : job.Alike Eq job') :
    job.places = job'.places := by
  have hfilters (e : Entity) {calls calls' : Calls}
      (h : List.Forall₂ (Call.Alike Eq) calls calls') :
      filterPlaces ⟨e, calls⟩ = filterPlaces ⟨e, calls'⟩ :=
    flatMap_eq_of_forall₂ (fun _ _ hcall => hcall.place_eq) (forall₂_filters h)
  have horders (e : Entity) {calls calls' : Calls}
      (h : List.Forall₂ (Call.Alike Eq) calls calls') :
      orderPlaces ⟨e, calls⟩ = orderPlaces ⟨e, calls'⟩ :=
    flatMap_eq_of_forall₂ (fun _ _ horder => congrArg (undeclared e) horder.1)
      (forall₂_directedOrders h)
  have hkeys (e : Entity) {data data' : Record} (h : DataAlike Eq data data') :
      keyPlaces e data = keyPlaces e data' :=
    flatMap_eq_of_forall₂ (fun _ _ hkey => congrArg (undeclared e) hkey) h
  cases h with
  | @select m e window calls calls' columns columns' hcalls hcolumns =>
      have heq : columns = columns' := List.forall₂_eq_eq_eq ▸ hcolumns.imp fun _ _ hname => hname.1
      simp only [Job.places, hfilters e hcalls, horders e hcalls, heq]
  | count e hcalls => exact hfilters e hcalls
  | delete e hcalls =>
      simp only [Job.places, hfilters e hcalls, horders e hcalls, limit?_eq_of_alike hcalls]
  | insert e hdata => exact hkeys e (forall₂_writable (fun _ _ => .inl) hdata)
  | update e id id' touch hdata =>
      have hnames := hdata.imp fun _ _ hname => hname.1
      exact hkeys e (forall₂_keep (fun _ _ hname => by rw [hname])
        (forall₂_writable (fun _ _ => .inl) hnames))

end Values

/-! ### Names in statements that write -/

/-- The content of a name. -/
def Token.name? : Token → Option String
  | name ident => some ident
  | _ => none

/-- The content of a name. -/
def Piece.name? : Piece → Option String
  | name ident => some ident
  | _ => none

/-- The contents of the names among tokens. -/
def namesOf (ts : List Token) : List String := ts.filterMap Token.name?

namespace Statement

/-- The names among pieces. -/
def names (s : Statement) : List String := s.filterMap Piece.name?

theorem namesOf_tokensFrom (s : Statement) (number : Nat) :
    namesOf (s.tokensFrom number) = s.names := by
  have hchars (cs : List Char) : namesOf (cs.map Token.char) = [] :=
    List.filterMap_eq_nil_iff.mpr (List.forall_mem_map.mpr fun _ _ => rfl)
  induction s generalizing number with
  | nil => rfl
  | cons x s ih =>
      rw [tokensFrom, namesOf, List.filterMap_append, names, List.filterMap_cons]
      change namesOf _ ++ namesOf _ = _
      rw [ih]
      cases x with
      | words text => exact congrArg (· ++ names s) (hchars _)
      | name ident => rfl
      | param value pgType => exact congrArg (· ++ names s) (hchars _)

@[simp] theorem names_nil : names [] = [] := rfl

@[simp] theorem names_append (s t : Statement) : names (s ++ t) = names s ++ names t :=
  List.filterMap_append

@[simp] theorem names_words (text : String) : names (words text) = [] := rfl

@[simp] theorem names_words_cons (text : String) (s : Statement) :
    names (.words text :: s) = names s := rfl

@[simp] theorem names_name_cons (ident : String) (s : Statement) :
    names (.name ident :: s) = ident :: names s := rfl

@[simp] theorem names_listed (separator : String) (parts : List Statement) :
    names (listed separator parts) = parts.flatMap names :=
  filterMap_listed (fun _ => rfl) separator parts

@[simp] theorem names_table (e : Entity) : names (table e) = [e.schema, e.table] := rfl

@[simp] theorem names_column (rowAlias name : String) : names (column rowAlias name) = [name] := rfl

@[simp] theorem names_placeholder (e : Entity) (name : String) (value : Value) :
    names (placeholder e name value) = [] := rfl

@[simp] theorem names_source (e : Entity) (a : Assignment) : names (a.source e) = [] := by
  unfold Assignment.source
  split <;> rfl

end Statement

section Columnless

variable {e : Entity} (h : e.columns = [])

include h

theorem declares_eq_false (name : String) : e.declares name = false := by
  rw [Entity.declares, Entity.column?, h]
  rfl

theorem writable_eq_self (data : Record) : e.writable data = data := by
  refine List.filter_eq_self.mpr ?_
  intro member _
  simp [Entity.takesKey, h]

theorem insertion_eq_given (data : Record) : insertion e data = given data := by
  simp [insertion, Entity.stamps, declares_eq_false h, writable_eq_self h]

theorem change_eq_given (data : Record) (touch : Bool) :
    change e data touch = given (Record.keep data fun key => key != e.primaryKey) := by
  simp [change, Entity.stamps, declares_eq_false h, writable_eq_self h]

theorem names_returned : names (returned e) = [] := by
  simp [returned, projection, selectsAll, h]

/-- The keys of the data are the names that are written to. -/
theorem names_insert (data : Record) :
    names (insert e data) = e.schema :: e.table :: Record.keys data := by
  have hkeys : (data.flatMap fun member => [member.1]) = Record.keys data :=
    List.flatMap_pure_eq_map Prod.fst data
  unfold insert
  rw [insertion_eq_given h]
  split
  · next hnone =>
      obtain rfl := List.map_eq_nil_iff.mp hnone
      simp [names_returned h, Record.keys]
  · simp [names_returned h, List.flatMap_map, given, hkeys]

theorem names_update (id : Value) (data : Record) (touch : Bool) :
    names (update e id data touch) =
      e.schema :: e.table :: (Record.keys data).filter (· != e.primaryKey) ++ [e.primaryKey] := by
  have hkeys : ((Record.keep data fun key => key != e.primaryKey).flatMap fun member =>
      [member.1]) = (Record.keys data).filter (· != e.primaryKey) := by
    rw [Record.keys, List.filter_map]
    exact List.flatMap_pure_eq_map Prod.fst _
  unfold update
  dsimp only
  rw [change_eq_given h, ← hkeys]
  split
  · next hnone =>
      rw [List.map_eq_nil_iff.mp hnone]
      simp [names_returned h]
  · simp [names_returned h, List.flatMap_map, given]

end Columnless

/-- The names in the text of a statement are those among its pieces. -/
theorem Job.namesOf_lex (job : Job) (h : job.entity.columns = []) :
    namesOf (lex job.statement.text) = names job.statement := by
  have htypes : pgTypes job.entity = [] := by rw [pgTypes, h, List.map_nil]
  rw [Job.lex_text (by simp [htypes])]
  exact namesOf_tokensFrom job.statement 1

/-- Names that a request brings are contents of names in the text, and values are not in it.
Undeclared columns of a plan, and keys of data, can be replaced by other undeclared ones: of the
tokens of the text only the contents of the names at their places change.  In an entity without
columns the keys of data are the names that are written to.  Jobs that differ in values only have
the same text. -/
theorem names_and_values_confined :
    (∀ job job' : Job, (∀ type ∈ pgTypes job.entity, '"' ∉ type.toList) →
      job.Alike (Interchangeable job.entity) job' →
        AgreeBut (lex job.statement.text) (lex job'.statement.text) job.places job'.places) ∧
      (∀ (e : Entity) (data : Record), e.columns = [] →
        namesOf (lex (insert e data).text) = e.schema :: e.table :: Record.keys data) ∧
      (∀ (e : Entity) (id : Value) (data : Record) (touch : Bool), e.columns = [] →
        namesOf (lex (update e id data touch).text) =
          e.schema :: e.table :: (Record.keys data).filter (· != e.primaryKey) ++ [e.primaryKey]) ∧
      ∀ job job' : Job, job.Alike Eq job' → job.statement.text = job'.statement.text := by
  refine ⟨fun job job' htypes halike => ?_, fun e data h => ?_, fun e id data touch h => ?_,
    fun job job' halike => ?_⟩
  · have hentity : job'.entity = job.entity := by cases halike <;> rfl
    exact (agree_statement halike).lex_text htypes job.part_statement.sound
      (hentity ▸ job'.part_statement.sound)
  · exact (Job.namesOf_lex (.insert e data) h).trans (names_insert h data)
  · exact (Job.namesOf_lex (.update e id data touch) h).trans (names_update h id data touch)
  · have hnames := agree_statement (halike.mono fun _ _ => .inl)
    rw [halike.places_eq] at hnames
    exact hnames.text_eq

/-- The books in an order of one's choice, with a title of one's choice. -/
def titledBooks (order title : String) : Plan :=
  ⟨Bookshop.books, [.orderBy order "asc", .compare "title" .eq (.string title)]⟩

/-- The name of a column to order by that tries to end the name and the statement. -/
def hostile : String := "\" ASC; DROP TABLE books; --"

/-- A hostile name is the content of one name, a hostile title is not in the text, and a hostile key
is the content of one name too. -/
theorem names_and_values_confined_hostile :
    AgreeBut (lex (select Bookshop.model (titledBooks "id" "Matter") [] none).text)
        (lex (select Bookshop.model (titledBooks hostile "Matter") [] none).text)
        ["title", "id"] ["title", hostile] ∧
      (select Bookshop.model (titledBooks "id" "Matter") [] none).text =
        (select Bookshop.model (titledBooks "id" hostile) [] none).text ∧
      namesOf (lex (insert Bookshop.books [(hostile, .null)]).text) =
        ["public", "books", hostile] := by
  have hnone (name : String) : Bookshop.books.column? name = none := rfl
  have hfilter {R : String → String → Prop} (title title' : String) (h : R "title" "title") :
      Call.Alike R (.compare "title" .eq (.string title)) (.compare "title" .eq (.string title')) :=
    .compare .eq h fun _ => rfl
  obtain ⟨hnames, hinsert, -, hvalues⟩ := names_and_values_confined
  refine ⟨hnames (.select Bookshop.model (titledBooks "id" "Matter") [] none)
    (.select Bookshop.model (titledBooks hostile "Matter") [] none) nofun ?_,
    hvalues (.select Bookshop.model (titledBooks "id" "Matter") [] none)
    (.select Bookshop.model (titledBooks "id" hostile) [] none) ?_, hinsert _ _ rfl⟩
  · refine .select _ _ none (.cons (.orderBy "asc" (.inr ⟨rfl, rfl⟩)) (.cons ?_ .nil)) .nil
    exact hfilter _ _ (.inl rfl)
  · exact .select _ _ none (.cons (.orderBy "asc" rfl) (.cons (hfilter _ _ rfl) .nil)) .nil

end EntityService.Sql
