import EntityService.Proofs.Tokens
import EntityService.Sql.Query
import EntityService.Sql.Write

/-!
# Sound statements

All statements that are made for plans and data are sound: whatever names and values they are made
of, their texts are read piece by piece.

## Main definitions

* `Statement.Part` — a sound statement that can stand after anything
* `Job` — a plan to read, count or delete by, or data to write
* `Job.statement` — the statement for a job

## Main results

* `part_select`, `part_insert`, … — the statements are sound
* `Job.lex_text` — the text of the statement for a job is read piece by piece

## Design notes

The only thing that is asked of a model is that the types of its columns have no double quotes:
these types stand in statements as they are.
-/

namespace EntityService.Sql

open EntityService.Json EntityService.Model EntityService.Number EntityService.Query

/-! ### Plain words -/

theorem IsBare.append {s t : String} (hs : IsBare s) (ht : IsBare t) : IsBare (s ++ t) := by
  unfold IsBare
  rw [String.toList_append, List.mem_append, List.mem_append, not_or, not_or]
  exact ⟨⟨hs.1, ht.1⟩, hs.2, ht.2⟩

theorem isBare_toString (n : Nat) : IsBare (toString n) := by
  have hdigits (c : Char) (hc : isDigit c = false) : c ∉ (toString n).toList := by
    intro hmem
    rw [isDigit_of_mem_toString hmem] at hc
    cases hc
  exact ⟨hdigits '"' (by decide), hdigits '$' (by decide)⟩

theorem IsApart.append {s : String} (h : IsApart s) (t : String) : IsApart (s ++ t) := by
  obtain ⟨c, hc, hdigit⟩ := h
  refine ⟨c, ?_, hdigit⟩
  rw [String.toList_append, List.head?_append, Option.mem_def.mp hc]
  rfl

theorem IsWords.append {s t : String} (hs : IsWords s) (ht : IsBare t) : IsWords (s ++ t) :=
  ⟨hs.1.append ht, hs.2.append t⟩

theorem isWords_relationAlias (n : Nat) : IsWords (relationAlias n) :=
  IsWords.append (by decide) (isBare_toString n)

theorem isWords_countAlias (n : Nat) : IsWords (countAlias n) :=
  IsWords.append (by decide) (isBare_toString n)

/-! ### Parts -/

namespace Statement

/-- A sound statement that does not begin with a name, so that it can stand after anything. -/
structure Part (types : List String) (s : Statement) : Prop where
  sound : s.Sound types
  opens : s.Opens

variable {types : List String}

theorem Sound.append {s t : Statement} (hs : s.Sound types) (ht : t.Sound types)
    (h : s.Closes ∨ t.Opens) : Sound types (s ++ t) where
  plain := List.forall_mem_append.mpr ⟨hs.plain, ht.plain⟩
  apart := by
    refine List.isChain_append.mpr ⟨hs.apart, ht.apart, ?_⟩
    intro x hx y hy hboth
    rcases h with hcloses | hopens
    · exact absurd (hcloses x hx) (by simp [hboth.1])
    · exact absurd (hopens y hy) (by simp [hboth.2])

theorem Opens.append {s t : Statement} (hs : s.Opens) (ht : s = [] → t.Opens) :
    Opens (s ++ t) := by
  cases s with
  | nil => exact ht rfl
  | cons x s => exact hs

theorem closes_append {s t : Statement} (ht : t.Closes) (hne : t ≠ []) : Closes (s ++ t) := by
  intro x hx
  rw [List.getLast?_append_of_ne_nil _ hne] at hx
  exact ht x hx

theorem sound_name (ident : String) : Sound types [.name ident] where
  plain := List.forall_mem_singleton.mpr trivial
  apart := .singleton _

theorem part_nil : Part types [] := ⟨⟨nofun, .nil⟩, nofun⟩

theorem part_singleton {x : Piece} (h : x.IsPlain types) (hname : x.isName = false) :
    Part types [x] where
  sound := ⟨List.forall_mem_singleton.mpr h, .singleton _⟩
  opens := by
    intro y hy
    obtain rfl := Option.some.inj hy
    exact hname

theorem part_words {text : String} (h : IsWords text) : Part types (words text) :=
  part_singleton h rfl

theorem opens_words (text : String) : Opens (words text) := by
  intro x hx
  obtain rfl := Option.some.inj hx
  rfl

theorem closes_words (text : String) : Closes (words text) := by
  intro x hx
  obtain rfl := Option.some.inj hx
  rfl

theorem Part.append {s t : Statement} (hs : s.Part types) (ht : t.Part types) :
    Part types (s ++ t) where
  sound := hs.sound.append ht.sound (.inr ht.opens)
  opens := hs.opens.append fun _ => ht.opens

theorem Sound.append_part {s t : Statement} (hs : s.Sound types) (ht : t.Part types) :
    Sound types (s ++ t) :=
  hs.append ht.sound (.inr ht.opens)

/-- Anything can stand after words. -/
theorem part_words_append {text : String} (h : IsWords text) {s : Statement}
    (hs : s.Sound types) : Part types (words text ++ s) where
  sound := (part_words h).sound.append hs (.inl (closes_words text))
  opens := (opens_words _).append nofun

theorem Part.append_words_append {s t : Statement} (hs : s.Part types) {text : String}
    (h : IsWords text) (ht : t.Sound types) : Part types (s ++ words text ++ t) := by
  rw [List.append_assoc]
  exact hs.append (part_words_append h ht)

theorem sound_listed {separator : String} (h : IsWords separator) {parts : List Statement}
    (hparts : ∀ s ∈ parts, s.Sound types) : Sound types (listed separator parts) := by
  induction parts with
  | nil => exact part_nil.sound
  | cons s rest ih =>
      obtain ⟨hs, hrest⟩ := List.forall_mem_cons.mp hparts
      cases rest with
      | nil =>
          rw [listed_singleton]
          exact hs
      | cons t rest =>
          rw [listed_cons_cons]
          have htail := part_words_append h (ih hrest)
          exact hs.append htail.sound (.inr htail.opens)

theorem part_listed {separator : String} (h : IsWords separator) {parts : List Statement}
    (hparts : ∀ s ∈ parts, s.Part types) : Part types (listed separator parts) where
  sound := sound_listed h fun s hs => (hparts s hs).sound
  opens := by
    cases parts with
    | nil => exact nofun
    | cons s rest =>
        obtain ⟨hs, hrest⟩ := List.forall_mem_cons.mp hparts
        cases rest with
        | nil =>
            rw [listed_singleton]
            exact hs.opens
        | cons t rest =>
            rw [listed_cons_cons]
            exact hs.opens.append fun _ => (opens_words _).append nofun

end Statement

open Statement

/-! ### Columns and conditions -/

/-- The types of the columns of an entity. -/
def pgTypes (e : Entity) : List String := e.columns.map (·.pgType)

section Plan

variable {types : List String} {e : Entity} {rowAlias : String}

theorem sound_table (e : Entity) : (table e).Sound types where
  plain := by
    have hpoint : IsWords "." := by decide
    simp only [table, List.forall_mem_cons]
    exact ⟨trivial, hpoint, trivial, nofun⟩
  apart := by
    simp [table, Piece.isName]

theorem part_column (ha : IsWords rowAlias) (name : String) : (column rowAlias name).Part types :=
  part_words_append (ha.append (by decide)) (sound_name name)

theorem part_operand (ha : IsWords rowAlias) (name : String) :
    (operand e rowAlias name).Part types := by
  refine (part_column ha name).append ?_
  split
  · exact part_nil
  · exact part_words (by decide)

theorem part_placeholder (e : Entity) (name : String) (value : Value) :
    (placeholder e name value).Part (pgTypes e) := by
  refine part_singleton (fun type htype => ?_) rfl
  obtain ⟨c, hc, rfl⟩ := Option.map_eq_some_iff.mp htype
  exact List.mem_map_of_mem (List.mem_of_find?_eq_some hc)

theorem part_output (ha : IsWords rowAlias) (name : String) (c : Option Column) :
    (output rowAlias name c).Part types := by
  refine (part_column ha name).append_words_append ?_ (sound_name name)
  split <;> decide

theorem part_of_mem_projection (ha : IsWords rowAlias) {columns : List String} :
    ∀ s ∈ projection e rowAlias columns, s.Part types := by
  unfold projection
  split
  · intro s hs
    obtain ⟨name, -, rfl⟩ := List.mem_map.mp hs
    exact part_output ha name _
  · split
    · exact List.forall_mem_singleton.mpr (part_words (ha.append (by decide)))
    · intro s hs
      obtain ⟨c, -, rfl⟩ := List.mem_map.mp hs
      exact part_output ha c.name _

theorem part_condition (ha : IsWords rowAlias) (call : Call) :
    (condition e rowAlias call).Part (pgTypes e) := by
  have hcompare (name : String) (op : Comparison) (value : Value) :
      Part (pgTypes e) (operand e rowAlias name ++ words (" " ++ op.sql ++ " ") ++
        placeholder e name value) := by
    refine (part_operand ha name).append_words_append ?_ (part_placeholder e name value).sound
    cases op <;> decide
  unfold condition
  split
  · exact (part_column ha _).append (part_words (by decide))
  · exact (part_column ha _).append (part_words (by decide))
  · have hvalue (value : Value) : Part (pgTypes e) [.param value none] :=
      part_singleton (fun _ htype => nomatch htype) rfl
    exact (part_column ha _).append_words_append (by decide) (hvalue _).sound
  · exact hcompare _ _ _
  · split <;> exact part_words (by decide)
  · refine (((part_operand ha _).append ?_).append ?_).append (part_words (by decide))
    · split <;> exact part_words (by decide)
    · refine part_listed (by decide) ?_
      intro s hs
      obtain ⟨value, -, rfl⟩ := List.mem_map.mp hs
      exact part_placeholder e _ value
  · refine (part_column ha _).append ?_
    split <;> exact part_words (by decide)
  · exact part_nil

/-! ### Plans -/

theorem part_wherePart (p : Plan) : (wherePart p).Part (pgTypes p.entity) := by
  unfold wherePart
  split
  · exact part_nil
  · refine part_words_append (by decide) (part_listed (by decide) fun s hs => ?_).sound
    obtain ⟨call, -, rfl⟩ := List.mem_map.mp hs
    exact part_condition (by decide) call

theorem part_orderPart (p : Plan) : (orderPart p).Part types := by
  refine part_words_append (by decide) ?_
  split
  · exact (part_column (by decide) _).sound
  · refine (part_listed (by decide) fun s hs => ?_).sound
    obtain ⟨order, -, rfl⟩ := List.mem_map.mp hs
    refine (part_column (by decide) _).append ?_
    split <;> exact part_words (by decide)

theorem part_limitPart (limit : Option Nat) : (limitPart limit).Part types := by
  unfold limitPart
  split
  · exact part_words (IsWords.append (by decide) (isBare_toString _))
  · exact part_nil

theorem part_offsetPart (offset : Option Nat) : (offsetPart offset).Part types := by
  unfold offsetPart
  split
  · exact part_nil
  · exact part_words (IsWords.append (by decide) (isBare_toString _))
  · exact part_nil

end Plan

/-! ### Relations -/

section Relations

variable {types : List String} {rowAlias parent : String}

theorem sound_relatedRows (ha : IsWords rowAlias) (hp : IsWords parent) (r : Relation)
    (target : Entity) : (relatedRows r target rowAlias parent).Sound types := by
  have hwhere : IsWords (" " ++ rowAlias ++ " WHERE ") :=
    ((show IsWords " " by decide).append ha.1).append (by decide)
  exact ((((sound_table target).append_part (part_words hwhere)).append_part
    (part_column ha _)).append_part (part_words (by decide))).append_part (part_column hp _)

theorem part_of_mem_relatedColumns (ha : IsWords rowAlias) (target : Entity) :
    ∀ s ∈ relatedColumns target rowAlias, s.Part types := by
  unfold relatedColumns
  split
  · exact List.forall_mem_singleton.mpr (part_words (ha.append (by decide)))
  · intro s hs
    obtain ⟨c, -, rfl⟩ := List.mem_map.mp hs
    exact part_output ha c.name _

theorem part_relatedSelect (ha : IsWords rowAlias) (hp : IsWords parent) (r : Relation)
    (target : Entity) {columns : List Statement} (hcolumns : ∀ s ∈ columns, s.Part types) :
    (relatedSelect r target rowAlias parent columns).Part types := by
  have hlisted : (listed ", " columns).Part types := part_listed (by decide) hcolumns
  have hrows : (relatedRows r target rowAlias parent).Sound types :=
    sound_relatedRows ha hp r target
  unfold relatedSelect
  split
  · exact (((part_words (by decide)).append hlisted).append_words_append (by decide) hrows).append
      (part_words (by decide))
  · exact (((((part_words (by decide)).append hlisted).append_words_append (by decide)
      hrows).append (part_words (by decide))).append (part_column ha _)).append
        (part_words (by decide))

mutual
theorem part_subquery {parent : String} (hp : IsWords parent) (used : Nat) (tree : LoadTree) :
    (subquery parent used tree).1.Part types := by
  cases tree with
  | node r target children =>
      have ha := isWords_relationAlias (used + 1)
      rw [subquery]
      refine part_relatedSelect ha hp r target (List.forall_mem_append.mpr ?_)
      exact ⟨part_of_mem_relatedColumns ha target, part_of_mem_subqueries ha (used + 1) children⟩

theorem part_of_mem_subqueries {parent : String} (hp : IsWords parent) (used : Nat)
    (forest : List LoadTree) : ∀ s ∈ (subqueries parent used forest).1, s.Part types := by
  cases forest with
  | nil => exact nofun
  | cons tree rest =>
      cases tree with
      | node r target children =>
          have hname : Part types [.words " AS ", .name r.name] :=
            @part_words_append types " AS " (by decide) _ (sound_name r.name)
          rw [subqueries]
          refine List.forall_mem_cons.mpr ⟨?_, part_of_mem_subqueries hp _ rest⟩
          exact (part_subquery hp used (.node r target children)).append hname
end

theorem part_of_mem_countSubqueries (m : Model) (e : Entity) (used : Nat) (names : List String) :
    ∀ s ∈ countSubqueries m e used names, s.Part types := by
  induction names generalizing used with
  | nil => exact nofun
  | cons name rest ih =>
      unfold countSubqueries
      split
      · next sub hsub =>
          refine List.forall_mem_cons.mpr ⟨?_, ih _⟩
          simp only [countSubquery?, Option.bind_eq_bind, Option.bind_eq_some_iff, Option.pure_def,
            Option.some.injEq] at hsub
          obtain ⟨r, -, target, -, rfl⟩ := hsub
          have hrows : (relatedRows r target (countAlias (used + 1)) mainAlias).Sound types :=
            sound_relatedRows (isWords_countAlias (used + 1)) (by decide) r target
          exact ((part_words_append (by decide) hrows).append_words_append (by decide)
            (sound_name _))
      · exact ih _

end Relations

/-! ### Statements -/

section Statements

/-- The parts of the list of columns of the statement that reads the rows of a plan. -/
def outputParts (m : Model) (p : Plan) (columns : List String) : List Statement :=
  let loads := subqueries mainAlias 0 (relationForest m p.entity p.calls.relations)
  projection p.entity mainAlias columns ++ loads.1 ++
    countSubqueries m p.entity loads.2 p.calls.counts

theorem part_of_mem_outputParts {types : List String} (m : Model) (p : Plan)
    (columns : List String) : ∀ s ∈ outputParts m p columns, s.Part types := by
  have hmain : IsWords mainAlias := by decide
  refine List.forall_mem_append.mpr ⟨List.forall_mem_append.mpr ⟨?_, ?_⟩, ?_⟩
  · exact part_of_mem_projection hmain
  · exact part_of_mem_subqueries hmain 0 _
  · exact part_of_mem_countSubqueries m p.entity _ _

/-- The statement that reads rows, from the left to the right. -/
theorem select_eq (m : Model) (p : Plan) (columns : List String) (window : Option (Nat × Nat)) :
    select m p columns window =
      words "SELECT " ++ (listed ", " (outputParts m p columns) ++ (words " FROM " ++
        (table p.entity ++ (words (" " ++ mainAlias) ++ (wherePart p ++ (orderPart p ++
          (limitPart ((window.map Prod.fst).or p.calls.limit?) ++
            offsetPart (window.map Prod.snd)))))))) := by
  unfold select outputParts
  cases window with
  | none =>
      simp only [List.append_assoc]
      rfl
  | some bounds =>
      simp only [List.append_assoc]
      rfl

theorem part_select (m : Model) (p : Plan) (columns : List String) (window : Option (Nat × Nat)) :
    (select m p columns window).Part (pgTypes p.entity) := by
  have houtputs : (listed ", " (outputParts m p columns)).Part (pgTypes p.entity) :=
    part_listed (by decide) (part_of_mem_outputParts m p columns)
  rw [select_eq]
  refine part_words_append (by decide) (houtputs.append ?_).sound
  refine part_words_append (by decide) ((sound_table p.entity).append_part ?_)
  refine (part_words (by decide)).append ((part_wherePart p).append ?_)
  exact (part_orderPart p).append ((part_limitPart _).append (part_offsetPart _))

theorem part_countRows (p : Plan) : (countRows p).Part (pgTypes p.entity) := by
  unfold countRows
  simp only [List.append_assoc]
  refine part_words_append (by decide) ((sound_name "count").append_part ?_)
  refine part_words_append (by decide) ((sound_table p.entity).append_part ?_)
  exact (part_words (by decide)).append (part_wherePart p)

theorem part_deleteRows (p : Plan) : (deleteRows p).Part (pgTypes p.entity) := by
  unfold deleteRows
  split <;> simp only [List.append_assoc]
  · refine part_words_append (by decide) ((sound_table p.entity).append_part ?_)
    exact (part_words (by decide)).append (part_wherePart p)
  · refine part_words_append (by decide) ((sound_table p.entity).append_part ?_)
    refine part_words_append (by decide) ((sound_name p.entity.primaryKey).append_part ?_)
    refine (part_words (by decide)).append ((part_column (by decide) _).append ?_)
    refine part_words_append (by decide) ((sound_table p.entity).append_part ?_)
    refine (part_words (by decide)).append ((part_wherePart p).append ?_)
    exact (part_orderPart p).append ((part_limitPart _).append (part_words (by decide)))

variable (e : Entity) (data : Record)

theorem part_source (a : Assignment) : (a.source e).Part (pgTypes e) := by
  unfold Assignment.source
  split
  · exact part_placeholder e a.column _
  · exact part_words (by decide)

theorem part_returned : (returned e).Part (pgTypes e) :=
  part_listed (by decide) (part_of_mem_projection (by decide))

theorem part_insert : (insert e data).Part (pgTypes e) := by
  have hreturning : (words " RETURNING " ++ returned e).Part (pgTypes e) :=
    (part_words (by decide)).append (part_returned e)
  have hcolumns (assignments : List Assignment) :
      (listed ", " (assignments.map fun a => [.name a.column])).Sound (pgTypes e) := by
    refine sound_listed (by decide) ?_
    intro s hs
    obtain ⟨a, -, rfl⟩ := List.mem_map.mp hs
    exact sound_name a.column
  have hsources (assignments : List Assignment) :
      (listed ", " (assignments.map (Assignment.source e))).Part (pgTypes e) := by
    refine part_listed (by decide) ?_
    intro s hs
    obtain ⟨a, -, rfl⟩ := List.mem_map.mp hs
    exact part_source e a
  unfold insert
  split <;> simp only [List.append_assoc]
  · refine part_words_append (by decide) ((sound_table e).append_part ?_)
    exact (part_words (by decide)).append ((part_words (by decide)).append hreturning)
  · refine part_words_append (by decide) ((sound_table e).append_part ?_)
    refine (part_words (by decide)).append ?_
    refine part_words_append (by decide) ((hcolumns _).append_part ?_)
    refine (part_words (by decide)).append ((hsources _).append ?_)
    exact (part_words (by decide)).append hreturning

theorem part_update (id : Value) (touch : Bool) : (update e id data touch).Part (pgTypes e) := by
  have hkey : (column mainAlias e.primaryKey ++ words " = " ++
      placeholder e e.primaryKey id).Part (pgTypes e) :=
    ((part_column (by decide) _).append (part_words (by decide))).append
      (part_placeholder e e.primaryKey id)
  have hset (assignments : List Assignment) : (listed ", " (assignments.map fun a =>
      [.name a.column, .words " = "] ++ a.source e)).Sound (pgTypes e) := by
    refine sound_listed (by decide) ?_
    intro s hs
    obtain ⟨a, -, rfl⟩ := List.mem_map.mp hs
    have hequals : (words " = ").Part (pgTypes e) := part_words (by decide)
    exact ((sound_name a.column).append_part hequals).append_part (part_source e a)
  unfold update
  dsimp only
  split
  · rw [List.append_assoc, List.append_assoc, List.append_assoc, List.append_assoc]
    refine (part_words (by decide)).append ((part_returned e).append ?_)
    refine part_words_append (by decide) ((sound_table e).append_part ?_)
    exact (part_words (by decide)).append hkey
  · simp only [List.append_assoc] at hkey ⊢
    refine part_words_append (by decide) ((sound_table e).append_part ?_)
    refine part_words_append (by decide) ((hset _).append_part ?_)
    refine (part_words (by decide)).append (hkey.append ?_)
    exact (part_words (by decide)).append (part_returned e)

end Statements

/-! ### Jobs -/

/-- What statements are made for: a plan to read, count or delete by, or data to write. -/
inductive Job where
  | select (m : Model) (p : Plan) (columns : List String) (window : Option (Nat × Nat))
  | count (p : Plan)
  | delete (p : Plan)
  | insert (e : Entity) (data : Record)
  | update (e : Entity) (id : Value) (data : Record) (touch : Bool)

namespace Job

/-- The entity whose rows a job is about. -/
def entity : Job → Entity
  | select _ p _ _ => p.entity
  | count p => p.entity
  | delete p => p.entity
  | insert e _ => e
  | update e _ _ _ => e

/-- The statement for a job. -/
def statement : Job → Statement
  | select m p columns window => Sql.select m p columns window
  | count p => countRows p
  | delete p => deleteRows p
  | insert e data => Sql.insert e data
  | update e id data touch => Sql.update e id data touch

theorem part_statement (job : Job) : job.statement.Part (pgTypes job.entity) := by
  cases job with
  | select m p columns window => exact part_select m p columns window
  | count p => exact part_countRows p
  | delete p => exact part_deleteRows p
  | insert e data => exact part_insert e data
  | update e id data touch => exact part_update e data id touch

/-- The text of the statement for a job is read piece by piece. -/
theorem lex_text {job : Job} (h : ∀ type ∈ pgTypes job.entity, '"' ∉ type.toList) :
    lex job.statement.text = job.statement.tokens :=
  Statement.lex_text h job.part_statement.sound

end Job

end EntityService.Sql
