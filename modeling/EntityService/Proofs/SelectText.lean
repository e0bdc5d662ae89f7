import EntityService.Proofs.Parameters
import EntityService.Proofs.SelectList

/-!
# Reading the text of a query

What is read of the parts that the queries for plans are made of: columns under names, stars, and
queries for the rows of relations and for counts.

## Main definitions

* `IsAlias` — characters that the alias of rows is made of
* `joinTokens` — a table under an alias, joined with the rows known by another alias
* `Emits`, `EmitsAll` — what is read of parts of a list of columns
* `IsSubquery` — what is read of a query in parentheses

## Main results

* `emits_output`, `emits_star` — columns are entries
* `isSubquery_relatedSelect`, `emits_countSubquery` — what is read of the queries for relations and
  counts
* `readSelect_text` — the entries of a query are those of its list of columns, and its table comes
  first after them

## Design notes

The text is read piece by piece.  A piece of a list of columns adds entries to the query that it
stands in, whatever has been read before, except for the end of a word `FROM`; a query in
parentheses leaves what has been read of it to the query around it.  An alias has no blanks, so no
word is read before the list of columns ends.
-/

namespace EntityService.Sql

open EntityService.Json EntityService.Model EntityService.Query Statement

/-! ### Tokens of a query -/

/-- Characters outside of names. -/
def chars (text : String) : List Token := text.toList.map .char

/-- A table with its schema. -/
def tableTokens (e : Entity) : List Token := [.name e.schema, .char '.', .name e.table]

/-- The table that a relation leads to, under an alias, with the condition that its foreign key is
the local key of the row known by another alias. -/
def joinTokens (r : Relation) (target : Entity) (rowAlias parent : String) : List Token :=
  tableTokens target ++ chars (" " ++ rowAlias ++ " WHERE " ++ rowAlias ++ ".") ++
    [.name r.foreignKey] ++ chars (" = " ++ parent ++ ".") ++ [.name r.localKey]

/-- What stands after the condition in a query for related rows: one row is enough, or all are in
the order of their primary keys. -/
def endTokens (r : Relation) (target : Entity) (rowAlias : String) : List Token :=
  match r.kind with
  | .toOne => chars " LIMIT 1"
  | .toMany => chars (" ORDER BY " ++ rowAlias ++ ".") ++ [.name target.primaryKey]

theorem tokens_table (e : Entity) : (table e).flatMap (Piece.tokens 1) = tableTokens e := by
  simp [table, Piece.tokens, tableTokens]

theorem tokens_relatedRows (r : Relation) (target : Entity) (rowAlias parent : String) :
    (relatedRows r target rowAlias parent).flatMap (Piece.tokens 1) =
      joinTokens r target rowAlias parent := by
  simp [relatedRows, table, column, words, Piece.tokens, joinTokens, tableTokens, chars]

/-- Characters that the alias of rows is made of. -/
def IsAlias (rowAlias : String) : Prop :=
  ∀ c ∈ rowAlias.toList, c ≠ '(' ∧ c ≠ ')' ∧ c ≠ ' ' ∧ c ≠ '*'

instance (rowAlias : String) : Decidable (IsAlias rowAlias) := List.decidableBAll _ _

theorem IsAlias.append {a b : String} (ha : IsAlias a) (hb : IsAlias b) : IsAlias (a ++ b) := by
  unfold IsAlias
  rw [String.toList_append]
  exact List.forall_mem_append.mpr ⟨ha, hb⟩

theorem isAlias_append_toString {rowAlias : String} (h : IsAlias rowAlias) (n : Nat) :
    IsAlias (rowAlias ++ toString n) := by
  refine h.append fun c hc => ?_
  have hdigit := EntityService.Number.isDigit_of_mem_toString hc
  refine ⟨?_, ?_, ?_, ?_⟩ <;>
    · rintro rfl
      exact absurd hdigit (by decide)

/-- Tokens outside of parentheses, with none that begins or ends one. -/
def IsLevel (ts : List Token) : Prop := ∀ t ∈ ts, t ≠ .char '(' ∧ t ≠ .char ')'

instance (ts : List Token) : Decidable (IsLevel ts) := List.decidableBAll _ _

theorem IsLevel.append {ts us : List Token} (ht : IsLevel ts) (hu : IsLevel us) :
    IsLevel (ts ++ us) :=
  List.forall_mem_append.mpr ⟨ht, hu⟩

theorem isLevel_name (ident : String) : IsLevel [.name ident] :=
  List.forall_mem_singleton.mpr ⟨nofun, nofun⟩

theorem isLevel_chars_append {s t : String} (hs : IsLevel (chars s)) (ht : IsLevel (chars t)) :
    IsLevel (chars (s ++ t)) := by
  unfold chars
  rw [String.toList_append, List.map_append]
  exact hs.append ht

theorem IsAlias.isLevel {rowAlias : String} (h : IsAlias rowAlias) : IsLevel (chars rowAlias) := by
  refine List.forall_mem_map.mpr fun c hc => ?_
  obtain ⟨hopen, hclose, -, -⟩ := h c hc
  exact ⟨mt Token.char.inj hopen, mt Token.char.inj hclose⟩

theorem isLevel_tableTokens (e : Entity) : IsLevel (tableTokens e) := by
  simp [tableTokens, IsLevel]

theorem isLevel_joinTokens {rowAlias parent : String} (ha : IsAlias rowAlias)
    (hp : IsAlias parent) (r : Relation) (target : Entity) :
    IsLevel (joinTokens r target rowAlias parent) := by
  have hfirst : IsLevel (chars (" " ++ rowAlias ++ " WHERE " ++ rowAlias ++ ".")) := by
    refine isLevel_chars_append (isLevel_chars_append (isLevel_chars_append ?_ ?_) ?_) ?_
    · exact isLevel_chars_append (by decide) ha.isLevel
    · decide
    · exact ha.isLevel
    · decide
  have hsecond : IsLevel (chars (" = " ++ parent ++ ".")) :=
    isLevel_chars_append (isLevel_chars_append (by decide) hp.isLevel) (by decide)
  unfold joinTokens
  refine IsLevel.append (IsLevel.append (IsLevel.append (IsLevel.append ?_ hfirst) ?_) hsecond) ?_
  · exact isLevel_tableTokens target
  · exact isLevel_name r.foreignKey
  · exact isLevel_name r.localKey

theorem isLevel_endTokens {rowAlias : String} (ha : IsAlias rowAlias) (r : Relation)
    (target : Entity) : IsLevel (endTokens r target rowAlias) := by
  unfold endTokens
  split
  · decide
  · exact (isLevel_chars_append (isLevel_chars_append (by decide) ha.isLevel) (by decide)).append
      (isLevel_name target.primaryKey)

/-! ### Reading pieces -/

namespace Reader

/-- Read a statement without parameters. -/
def read (r : Reader) (s : Statement) : Reader := (s.flatMap (Piece.tokens 1)).foldl step r

theorem read_append (r : Reader) (s t : Statement) : r.read (s ++ t) = (r.read s).read t := by
  rw [read, List.flatMap_append, List.foldl_append]
  rfl

theorem read_words (r : Reader) (text : String) :
    r.read (words text) = (chars text).foldl step r := by
  rw [read, words, List.flatMap_singleton]
  rfl

theorem read_words_append (r : Reader) (s t : String) :
    r.read (words (s ++ t)) = (r.read (words s)).read (words t) := by
  rw [read_words, read_words, read_words, chars, String.toList_append, List.map_append,
    List.foldl_append]
  rfl

theorem read_name (r : Reader) (ident : String) : r.read [.name ident] = r.step (.name ident) := rfl

/-- What stands after a list of columns and in no parentheses is kept. -/
theorem foldl_step_of_level {ts : List Token} (hts : IsLevel ts) (recent : List Char)
    (entries : List Entry) (clauses : List Token) (below : List Frame) :
    ts.foldl step ⟨recent, { listing := false, entries, clauses }, below⟩ =
      ⟨recent, { listing := false, entries, clauses := clauses ++ ts }, below⟩ := by
  induction ts generalizing clauses with
  | nil => rw [List.append_nil, List.foldl_nil]
  | cons t ts ih =>
      obtain ⟨⟨hopen, hclose⟩, hrest⟩ := List.forall_mem_cons.mp hts
      have hstep : step ⟨recent, { listing := false, entries, clauses }, below⟩ t =
          ⟨recent, { listing := false, entries, clauses := clauses ++ [t] }, below⟩ := by
        rw [step_of_ne hopen hclose]
        rfl
      rw [List.foldl_cons, hstep, ih hrest, List.append_assoc]
      rfl

theorem read_of_level {s : Statement} {ts : List Token} (hs : s.flatMap (Piece.tokens 1) = ts)
    (hts : IsLevel ts) (recent : List Char) (entries : List Entry) (clauses : List Token)
    (below : List Frame) :
    read ⟨recent, { listing := false, entries, clauses }, below⟩ s =
      ⟨recent, { listing := false, entries, clauses := clauses ++ ts }, below⟩ := by
  rw [read, hs]
  exact foldl_step_of_level hts recent entries clauses below

/-- The word that ends a list of columns has an `M` before its last blank. -/
theorem fromWord_isPrefixOf_cons {recent : List Char} (h : recent.head? ≠ some 'M') (c : Char) :
    fromWord.isPrefixOf (c :: recent) = false := by
  cases recent with
  | nil => simp [fromWord, List.isPrefixOf]
  | cons d recent =>
      have hd : ('M' == d) = false :=
        beq_eq_false_iff_ne.mpr fun heq => h (congrArg some heq.symm)
      simp [fromWord, List.isPrefixOf, hd]

/-- An alias is read without notice. -/
theorem foldl_step_alias {cs : List Char} (h : ∀ c ∈ cs, c ≠ '(' ∧ c ≠ ')' ∧ c ≠ ' ' ∧ c ≠ '*')
    (recent : List Char) (entries : List Entry) (below : List Frame) :
    (cs.map Token.char).foldl step ⟨recent, { entries }, below⟩ =
      ⟨cs.reverse ++ recent, { entries }, below⟩ := by
  induction cs generalizing recent with
  | nil => rfl
  | cons c cs ih =>
      obtain ⟨⟨hopen, hclose, hblank, hstar⟩, hcs⟩ := List.forall_mem_cons.mp h
      have hfrom : fromWord.isPrefixOf (c :: recent) = false := by
        have hc : (' ' == c) = false := beq_eq_false_iff_ne.mpr (Ne.symm hblank)
        simp [fromWord, List.isPrefixOf, hc]
      have hnone : isStar c recent = false := by
        rw [isStar, beq_eq_false_iff_ne.mpr hstar, Bool.false_and]
      have hstep : step ⟨recent, { entries }, below⟩ (.char c) =
          ⟨c :: recent, { entries }, below⟩ := by
        rw [step_of_ne (mt Token.char.inj hopen) (mt Token.char.inj hclose)]
        simp [list, hfrom, hnone]
      rw [List.map_cons, List.foldl_cons, hstep, ih hcs, List.reverse_cons, List.append_assoc]
      rfl

/-- An alias with the dot after it is read without notice. -/
theorem read_alias_dot {rowAlias : String} (h : IsAlias rowAlias) (recent : List Char)
    (entries : List Entry) (below : List Frame) :
    read ⟨recent, { entries }, below⟩ (words (rowAlias ++ ".")) =
      ⟨'.' :: (rowAlias.toList.reverse ++ recent), { entries }, below⟩ := by
  have hdot : IsAlias (rowAlias ++ ".") := h.append (by decide)
  have hreverse : (rowAlias ++ ".").toList.reverse = '.' :: rowAlias.toList.reverse := by
    rw [String.toList_append, List.reverse_append]
    rfl
  rw [read_words, chars, foldl_step_alias hdot, hreverse]
  rfl

/-! ### Entries in a list -/

/-- A part of a list of columns is read as entries, wherever it does not complete the word that ends
the list. -/
def Emits (s : Statement) (added : List Entry) : Prop :=
  ∀ recent : List Char, recent.head? ≠ some 'M' → ∀ (entries : List Entry) (below : List Frame),
    ∃ recent', recent'.head? ≠ some 'M' ∧
      read ⟨recent, { entries }, below⟩ s = ⟨recent', { entries := entries ++ added }, below⟩

theorem Emits.append {s t : Statement} {added added' : List Entry} (hs : Emits s added)
    (ht : Emits t added') : Emits (s ++ t) (added ++ added') := by
  intro recent hrecent entries below
  obtain ⟨middle, hmiddle, hfirst⟩ := hs recent hrecent entries below
  obtain ⟨last, hlast, hsecond⟩ := ht middle hmiddle (entries ++ added) below
  exact ⟨last, hlast, by rw [read_append, hfirst, hsecond, List.append_assoc]⟩

/-- Parts of a list of columns are read as entries, one after the other. -/
inductive EmitsAll : List Statement → List Entry → Prop where
  | nil : EmitsAll [] []
  | cons {s : Statement} {parts : List Statement} {added others : List Entry} (h : Emits s added)
      (hrest : EmitsAll parts others) : EmitsAll (s :: parts) (added ++ others)

theorem EmitsAll.append {parts parts' : List Statement} {added added' : List Entry}
    (h : EmitsAll parts added) (h' : EmitsAll parts' added') :
    EmitsAll (parts ++ parts') (added ++ added') := by
  induction h with
  | nil => exact h'
  | cons hs _ ih =>
      rw [List.append_assoc]
      exact .cons hs ih

theorem EmitsAll.map {α : Type} {part : α → Statement} {entry : α → Entry}
    (h : ∀ x, Emits (part x) [entry x]) (xs : List α) :
    EmitsAll (xs.map part) (xs.map entry) := by
  induction xs with
  | nil => exact .nil
  | cons x xs ih => exact .cons (h x) ih

/-- A list of columns is read as its entries. -/
theorem emits_listed {parts : List Statement} {added : List Entry} (h : EmitsAll parts added) :
    Emits (listed ", " parts) added := by
  induction h with
  | nil => exact fun recent hrecent entries below => ⟨recent, hrecent, by rw [List.append_nil]; rfl⟩
  | @cons s parts added others hs hrest ih =>
      cases hrest with
      | nil =>
          rw [listed_singleton, List.append_nil]
          exact hs
      | cons _ _ =>
          have hseparator : Emits (words ", ") [] := by
            intro recent hrecent entries below
            refine ⟨' ' :: ',' :: recent, by simp, ?_⟩
            rw [read_words, List.append_nil]
            simp [chars, step, list, isStar, fromWord, List.isPrefixOf]
          rw [listed_cons_cons]
          exact hs.append (hseparator.append ih)

/-- The end of a list of columns. -/
theorem read_from {recent : List Char} (h : recent.head? ≠ some 'M') (entries : List Entry)
    (below : List Frame) :
    read ⟨recent, { entries }, below⟩ (words " FROM ") =
      ⟨fromWord ++ recent, { listing := false, entries }, below⟩ := by
  have hsplit : chars " FROM " = .char ' ' :: chars "FROM " := rfl
  have hblank : step ⟨recent, { entries }, below⟩ (.char ' ') =
      ⟨' ' :: recent, { entries }, below⟩ := by
    simp [step, list, isStar, fromWord_isPrefixOf_cons h]
  rw [read_words, hsplit, List.foldl_cons, hblank]
  simp [chars, step, list, isStar, fromWord, List.isPrefixOf]

/-! ### Columns -/

/-- A column under a name is an entry. -/
theorem emits_output {rowAlias : String} (h : IsAlias rowAlias) (name : String)
    (c : Option Column) : Emits (output rowAlias name c) [.column (some name) name] := by
  intro recent _ entries below
  have hcolumn : read ⟨recent, { entries }, below⟩ (column rowAlias name) =
      ⟨[], { entries, column := some name }, below⟩ := by
    have hsplit : column rowAlias name = words (rowAlias ++ ".") ++ [.name name] := rfl
    rw [hsplit, read_append, read_alias_dot h, read_name]
    simp [step, list, asWord, List.isPrefixOf]
  have hname (text : String) (htext : text = "::text AS " ∨ text = " AS ") :
      (read ⟨[], { entries, column := some name }, below⟩ (words text)).step (.name name) =
        ⟨[], { entries := entries ++ [.column (some name) name] }, below⟩ := by
    rcases htext with rfl | rfl <;> rfl
  refine ⟨[], nofun, ?_⟩
  unfold output
  rw [read_append, read_append, hcolumn, read_name]
  refine hname _ ?_
  split
  · exact .inl rfl
  · exact .inr rfl

/-- A star is an entry. -/
theorem emits_star {rowAlias : String} (h : IsAlias rowAlias) :
    Emits (words (rowAlias ++ ".*")) [.star] := by
  intro recent _ entries below
  have hsplit : rowAlias ++ ".*" = (rowAlias ++ ".") ++ "*" := by
    rw [String.append_assoc]
    rfl
  refine ⟨'*' :: '.' :: (rowAlias.toList.reverse ++ recent), by simp, ?_⟩
  -- what has been read up to the dot is no entry; the star after it is one
  rw [hsplit, read_words_append, read_alias_dot h, read_words]
  simp [chars, step, list, isStar, fromWord, List.isPrefixOf]

/-! ### Queries in parentheses -/

/-- What is read of a query in parentheses: it waits for a name in the query around it. -/
def IsSubquery (s : Statement) (query : Select) : Prop :=
  ∀ r : Reader, r.read s = { top := { r.top with inner := some query }, below := r.below }

/-- A query under a name is an entry. -/
theorem IsSubquery.emits {s : Statement} {query : Select} (h : IsSubquery s query)
    (name : String) :
    Emits (s ++ [.words " AS ", .name name]) [.query name query.entries query.clauses] := by
  intro recent _ entries below
  refine ⟨[], nofun, ?_⟩
  rw [read_append, h]
  rfl

/-- The beginning of a query for related rows, up to its list of columns. -/
theorem read_toOne_start (r : Reader) :
    r.read (words "(SELECT row_to_json(sub) FROM (SELECT ") =
      { recent := selectWord, top := {}, below := { listing := false } :: r.top :: r.below } := by
  rw [read_words]
  simp [chars, step, list, isStar, Frame.result, selectWord, fromWord, List.isPrefixOf]

@[inherit_doc read_toOne_start]
theorem read_toMany_start (r : Reader) :
    r.read (words "(SELECT COALESCE(json_agg(row_to_json(sub)), '[]'::json) FROM (SELECT ") =
      { recent := selectWord, top := {}, below := { listing := false } :: r.top :: r.below } := by
  rw [read_words]
  simp [chars, step, list, isStar, Frame.result, selectWord, fromWord, List.isPrefixOf]

/-- At the end of a query for related rows the query that it wraps waits for a name. -/
theorem read_end (recent : List Char) (entries : List Entry) (clauses : List Token)
    (parent : Frame) (below : List Frame) :
    read
        { recent, top := { listing := false, entries, clauses }
          below := { listing := false } :: parent :: below } (words ") sub)") =
      { top := { parent with inner := some ⟨entries, clauses⟩ }, below } := by
  rw [read_words]
  simp [chars, step, Frame.result]

/-- The query for the rows of a relation has the entries of its list of columns, and its table is
joined with the rows around it. -/
theorem isSubquery_relatedSelect {rowAlias parent : String} (ha : IsAlias rowAlias)
    (hp : IsAlias parent) (r : Relation) (target : Entity) {columns : List Statement}
    {entries : List Entry} (h : EmitsAll columns entries) :
    IsSubquery (relatedSelect r target rowAlias parent columns)
      ⟨entries, joinTokens r target rowAlias parent ++ endTokens r target rowAlias⟩ := by
  have hbody (below : List Frame) : ∃ recent,
      ((read ⟨selectWord, {}, below⟩ (listed ", " columns)).read (words " FROM ")).read
        (relatedRows r target rowAlias parent) =
        ⟨recent, { listing := false, entries, clauses := joinTokens r target rowAlias parent },
          below⟩ := by
    obtain ⟨recent, hrecent, hcolumns⟩ := emits_listed h selectWord (by decide) [] below
    refine ⟨fromWord ++ recent, ?_⟩
    rw [hcolumns, read_from hrecent, read_of_level (tokens_relatedRows r target rowAlias parent)
      (isLevel_joinTokens ha hp r target)]
    rfl
  intro reader
  obtain ⟨recent, hread⟩ := hbody ({ listing := false } :: reader.top :: reader.below)
  have hend := isLevel_endTokens ha r target
  cases hkind : r.kind with
  | toOne =>
      have hsplit : words " LIMIT 1) sub)" = words (" LIMIT 1" ++ ") sub)") := rfl
      have htokens : (words " LIMIT 1").flatMap (Piece.tokens 1) = endTokens r target rowAlias := by
        simp [words, Piece.tokens, endTokens, hkind, chars]
      simp only [relatedSelect, hkind]
      rw [hsplit, read_append, read_append, read_append, read_append, read_toOne_start, hread,
        read_words_append, read_of_level htokens hend, read_end]
  | toMany =>
      have htokens : (words " ORDER BY " ++ column rowAlias target.primaryKey).flatMap
          (Piece.tokens 1) = endTokens r target rowAlias := by
        simp [words, column, Piece.tokens, endTokens, hkind, chars]
      simp only [relatedSelect, hkind]
      rw [read_append, read_append, read_append, read_append, read_append, read_append,
        read_toMany_start, hread, ← read_append _ (words " ORDER BY "),
        read_of_level htokens hend, read_end]

/-- A count is a query without entries of its own. -/
theorem emits_countSubquery {rowAlias : String} (ha : IsAlias rowAlias) (r : Relation)
    (target : Entity) (key : String) :
    Emits (words "(SELECT COUNT(*) FROM " ++ relatedRows r target rowAlias mainAlias ++
      words ") AS " ++ [.name key])
      [.query key [] (joinTokens r target rowAlias mainAlias)] := by
  intro recent _ entries below
  have hstart : read ⟨recent, { entries }, below⟩ (words "(SELECT COUNT(*) FROM ") =
      ⟨fromWord, { listing := false }, { entries } :: below⟩ := by
    rw [read_words]
    simp [chars, step, list, isStar, Frame.result, fromWord, List.isPrefixOf]
  have hend (clauses : List Token) :
      read ⟨fromWord, { listing := false, clauses }, { entries } :: below⟩ (words ") AS ") =
        ⟨asWord, { entries, inner := some ⟨[], clauses⟩ }, below⟩ := by
    rw [read_words]
    simp [chars, step, list, isStar, Frame.result, fromWord, asWord, List.isPrefixOf]
  refine ⟨[], nofun, ?_⟩
  rw [read_append, read_append, read_append, hstart,
    read_of_level (tokens_relatedRows r target rowAlias mainAlias)
      (isLevel_joinTokens ha (by decide) r target), hend]
  rfl

/-! ### The outermost query -/

/-- Once the list of columns of the outermost query has ended, its entries stay, and so does what
stands first after it. -/
theorem bottom_step {r : Reader} (h : r.bottom.listing = false) (t : Token) :
    (r.step t).bottom.listing = false ∧ (r.step t).bottom.entries = r.bottom.entries ∧
      r.bottom.clauses <+: (r.step t).bottom.clauses := by
  obtain ⟨recent, top, below⟩ := r
  unfold step
  split
  · exact ⟨h, rfl, List.prefix_rfl⟩
  · cases below with
    | nil => exact ⟨h, rfl, List.prefix_rfl⟩
    | cons parent below => cases below <;> exact ⟨h, rfl, List.prefix_rfl⟩
  · cases below with
    | nil =>
        change top.listing = false at h
        rw [if_neg (Bool.eq_false_iff.mp h)]
        exact ⟨h, rfl, List.prefix_append _ _⟩
    | cons parent below =>
        split
        · cases t <;> exact ⟨h, rfl, List.prefix_rfl⟩
        · exact ⟨h, rfl, List.prefix_rfl⟩

theorem bottom_foldl_step {r : Reader} (h : r.bottom.listing = false) (ts : List Token) :
    (ts.foldl step r).bottom.entries = r.bottom.entries ∧
      r.bottom.clauses <+: (ts.foldl step r).bottom.clauses := by
  induction ts generalizing r with
  | nil => exact ⟨rfl, List.prefix_rfl⟩
  | cons t ts ih =>
      obtain ⟨hlisting, hentries, hclauses⟩ := bottom_step h t
      obtain ⟨hentries', hclauses'⟩ := ih hlisting
      exact ⟨hentries'.trans hentries, hclauses.trans hclauses'⟩

end Reader

open Reader

/-- The beginning of a query for the rows of an entity, up to its table. -/
def selectStart (parts : List Statement) (e : Entity) : Statement :=
  words "SELECT " ++ listed ", " parts ++ words " FROM " ++ table e ++ words (" " ++ mainAlias)

/-- A query has the entries of its list of columns, and its table comes first after them, whatever
stands after it. -/
theorem readSelect_text {parts : List Statement} {added : List Entry} (h : EmitsAll parts added)
    (hparts : ∀ s ∈ parts, s.Part []) (hparams : ∀ s ∈ parts, s.params = []) (e : Entity)
    (rest : Statement) :
    (readSelect (Statement.text (selectStart parts e ++ rest))).entries = added ∧
      tableTokens e ++ chars (" " ++ mainAlias) <+:
        (readSelect (Statement.text (selectStart parts e ++ rest))).clauses := by
  have hsound : Sound [] (selectStart parts e) := by
    unfold selectStart
    simp only [List.append_assoc]
    refine (part_words_append (by decide) ((part_listed (by decide) hparts).append ?_).sound).sound
    exact part_words_append (by decide) ((sound_table e).append_part (part_words (by decide)))
  have hcloses : Closes (selectStart parts e) :=
    closes_append (closes_words _) (List.cons_ne_nil _ _)
  have hnone : params (selectStart parts e) = [] := by
    simp [selectStart, flatMap_params_eq_nil hparams]
  obtain ⟨after, hlex⟩ := lex_text_append hsound hcloses rest
  obtain ⟨recent, hrecent, hlisted⟩ := emits_listed h selectWord (by decide) [] []
  have hread : Reader.read {} (selectStart parts e) =
      ⟨fromWord ++ recent,
        { listing := false, entries := added
          clauses := tableTokens e ++ chars (" " ++ mainAlias) }, []⟩ := by
    have hselect : Reader.read {} (words "SELECT ") = ⟨selectWord, {}, []⟩ := by
      rw [read_words]
      simp [chars, step, list, isStar, selectWord, fromWord, List.isPrefixOf]
    have hmain : (words (" " ++ mainAlias)).flatMap (Piece.tokens 1) =
        chars (" " ++ mainAlias) := by
      simp [words, Piece.tokens, chars]
    rw [selectStart, read_append, read_append, read_append, read_append, hselect, hlisted,
      read_from hrecent, read_of_level (tokens_table e) (isLevel_tableTokens e),
      read_of_level hmain (by decide)]
    rfl
  have hreader : (lex (Statement.text (selectStart parts e ++ rest))).foldl step {} =
      after.foldl step (Reader.read {} (selectStart parts e)) := by
    rw [hlex, tokensFrom_eq_flatMap hnone, List.foldl_append]
    rfl
  rw [readSelect, hreader, hread]
  exact bottom_foldl_step rfl after

end EntityService.Sql
