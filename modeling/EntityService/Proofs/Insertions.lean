import EntityService.Proofs.Assignments
import EntityService.Proofs.Parameters
import EntityService.Proofs.Resolution

/-!
# What the statement for a new row says

The statement for a new row lists the columns that are written and, position by position, what is
written to them: a parameter for each member of the data, the time for each timestamp that they do
not give.

## Main definitions

* `Adds` — the assignments that a new row is to be made of
* `insertionText` — the text of the statement, from its columns and the texts of the values
* `IsSourceAt` — a text stands for what is assigned at a position

## Main results

* `mem_insertion` — the list of assignments has those that the row is to be made of
* `text_insert`, `isSourceAt_sources` — the text of the statement and its two lists
* `nodup_columns_insertion_iff` — when no column is listed twice
* `insert_lists_columns_once_iff` — all of this for the entities of a configuration

## Design notes

The two timestamps of an entity can have one name: it is then listed twice.
-/

namespace EntityService

open EntityService.Config EntityService.Json EntityService.Model EntityService.Sql

variable {e : Entity} {data : Record}

/-! ### Assignments -/

/-- The assignments that a new row is made of: the data under each key that is written, and the time
for each timestamp that is declared and that the data do not have.  A key is written when it is
declared, or when no columns are. -/
inductive Adds (e : Entity) (data : Record) : Assignment → Prop
  | given {key : String} {value : Value} (mem : (key, value) ∈ data)
      (written : e.columns = [] ∨ e.declares key) : Adds e data ⟨key, some value⟩
  | time {column : String} (timestamp : column = e.createdAt ∨ column = e.updatedAt)
      (declared : e.declares column) (absent : column ∉ Record.keys data) :
      Adds e data ⟨column, none⟩

/-- The timestamps that are set by the clock. -/
def stamped (e : Entity) (data : Record) : List String :=
  [e.createdAt, e.updatedAt].filter fun column => e.stamps column data

theorem mem_stamped {column : String} :
    column ∈ stamped e data ↔
      (column = e.createdAt ∨ column = e.updatedAt) ∧
        e.declares column ∧ column ∉ Record.keys data := by
  rw [stamped, List.mem_filter, stamps_iff]
  simp

theorem insertion_eq :
    insertion e data = given (e.writable data) ++ (stamped e data).map fun c => ⟨c, none⟩ := rfl

theorem mem_given {a : Assignment} {data : Record} :
    a ∈ given data ↔ ∃ member ∈ data, ⟨member.1, some member.2⟩ = a :=
  List.mem_map

/-- The list of assignments has those that the row is to be made of. -/
theorem mem_insertion {a : Assignment} : a ∈ insertion e data ↔ Adds e data a := by
  rw [insertion_eq, List.mem_append]
  constructor
  · rintro (h | h)
    · obtain ⟨⟨key, value⟩, hmember, rfl⟩ := mem_given.mp h
      obtain ⟨hmem, hwritten⟩ := List.mem_filter.mp hmember
      exact .given hmem (takesKey_iff.mp hwritten)
    · obtain ⟨column, hcolumn, rfl⟩ := List.mem_map.mp h
      obtain ⟨htimestamp, hdeclared, habsent⟩ := mem_stamped.mp hcolumn
      exact .time htimestamp hdeclared habsent
  · rintro (⟨hmem, hwritten⟩ | ⟨htimestamp, hdeclared, habsent⟩)
    · exact .inl (mem_given.mpr ⟨_, List.mem_filter.mpr ⟨hmem, takesKey_iff.mpr hwritten⟩, rfl⟩)
    · exact .inr (List.mem_map.mpr ⟨_, mem_stamped.mpr ⟨htimestamp, hdeclared, habsent⟩, rfl⟩)

/-- The columns are the keys that are written and the timestamps that are set. -/
theorem columns_insertion :
    (insertion e data).map (·.column) = Record.keys (e.writable data) ++ stamped e data := by
  rw [insertion_eq, List.map_append, given, List.map_map, List.map_map]
  congr 1
  exact List.map_id _

/-- A timestamp is set twice when both timestamps have one name. -/
theorem nodup_stamped_iff :
    (stamped e data).Nodup ↔ (e.createdAt = e.updatedAt → e.stamps e.createdAt data = false) := by
  rw [stamped]
  constructor
  · intro hnodup heq
    by_contra hstamps
    rw [← heq, List.filter_eq_self.mpr] at hnodup
    · simp at hnodup
    · simpa using hstamps
  · intro h
    by_cases heq : e.createdAt = e.updatedAt
    · have hnone : ([e.createdAt, e.updatedAt].filter fun column => e.stamps column data) = [] := by
        rw [← heq]
        simp [h heq]
      rw [hnone]
      exact List.nodup_nil
    · exact List.Nodup.filter _ (by simpa using heq)

/-- No column is listed twice, unless it is both of the timestamps and is set by the clock. -/
theorem nodup_columns_insertion_iff (hdata : (Record.keys data).Nodup) :
    ((insertion e data).map (·.column)).Nodup ↔
      (e.createdAt = e.updatedAt → e.stamps e.createdAt data = false) := by
  have hsub : (Record.keys (e.writable data)).Sublist (Record.keys data) :=
    List.filter_sublist.map Prod.fst
  have hapart : ∀ key ∈ Record.keys (e.writable data), ∀ column ∈ stamped e data, key ≠ column := by
    rintro key hkey column hcolumn rfl
    exact (mem_stamped.mp hcolumn).2.2 (hsub.subset hkey)
  rw [columns_insertion, List.nodup_append, ← nodup_stamped_iff]
  constructor
  · exact fun h => h.2.1
  · exact fun h => ⟨hdata.sublist hsub, h, hapart⟩

/-- An entity of a configuration declares its timestamps when it declares any columns. -/
theorem declares_createdAt_iff {config : Configuration} {m : Model}
    (hm : Model.resolve config = .ok m) (he : e ∈ m.entities) :
    e.declares e.createdAt ↔ e.columns ≠ [] := by
  obtain ⟨-, rfl⟩ := of_resolve hm
  obtain ⟨d, -, rfl⟩ := List.mem_map.mp he
  constructor
  · intro hdeclares hnone
    rw [Entity.declares, Entity.column?, hnone] at hdeclares
    cases hdeclares
  · intro hcolumns
    obtain ⟨c, hc, hname⟩ := exists_mem_columnsOf_of_timestamp
      (mt columnsOf_eq_nil_iff.mpr hcolumns) (.inl rfl)
    have hdeclares : (entityOf config.relations d).declares c.name := declares_of_mem hc
    rw [hname] at hdeclares
    exact hdeclares

/-! ### Texts of parts -/

namespace Sql

open Statement

/-! ### The text of the statement -/

/-- The text of a statement for a new row: its columns and the texts of what is written to them,
unless there are none, and the columns of the row that is given back. -/
def insertionText (e : Entity) (columns sources : List String) : String :=
  "INSERT INTO " ++ quotedName e.schema ++ "." ++ quotedName e.table ++ " AS main" ++
    (if columns = [] then " DEFAULT VALUES"
      else " (" ++ Text.joined ", " (columns.map quotedName) ++ ") VALUES (" ++
        Text.joined ", " sources ++ ")") ++
    " RETURNING " ++ (returned e).text

/-- The texts of what is written to the columns. -/
def sources (e : Entity) (assignments : List Assignment) : List String :=
  partTexts 1 (assignments.map (Assignment.source e))

/-- The list of columns in the text. -/
theorem partTexts_columns (number : Nat) (assignments : List Assignment) :
    partTexts number (assignments.map fun a => [.name a.column]) =
      (assignments.map (·.column)).map quotedName := by
  induction assignments with
  | nil => rfl
  | cons a rest ih =>
      rw [List.map_cons, List.map_cons, List.map_cons, partTexts, params_name, params_nil,
        List.length_nil, Nat.add_zero, ih, textFrom_name_cons, textFrom_nil, String.append_empty]

/-- The text lists the columns of the assignments and what is written to them. -/
theorem textFrom_insert (number : Nat) (e : Entity) (data : Record) :
    textFrom number (insert e data) = insertionText e ((insertion e data).map (·.column))
      (partTexts number ((insertion e data).map (Assignment.source e))) := by
  have hcolumns (number : Nat) (assignments : List Assignment) :
      textFrom number (listed ", " (assignments.map fun a => [.name a.column])) =
        Text.joined ", " ((assignments.map (·.column)).map quotedName) := by
    rw [textFrom_listed, partTexts_columns]
  have hreturned (number : Nat) : textFrom number (returned e) = (returned e).text :=
    textFrom_eq_text (params_returned e) number
  have hnone (assignments : List Assignment) :
      (assignments.map fun a => [Piece.name a.column]).flatMap params = [] :=
    flatMap_params_eq_nil (List.forall_mem_map.mpr fun _ _ => rfl)
  have halias : " AS " ++ mainAlias = " AS main" := rfl
  have htable : Buffer.tableText e = quotedName e.schema ++ "." ++ quotedName e.table := rfl
  unfold insert insertionText
  rw [halias]
  split
  · next hempty =>
      simp only [textFrom_append, textFrom_words, textFrom_table, htable, hreturned, hempty,
        List.map_nil, if_pos, String.append_assoc]
  · next hne =>
      rw [if_neg (mt List.map_eq_nil_iff.mp hne)]
      simp only [textFrom_append, textFrom_words, textFrom_table, htable, hreturned, hcolumns,
        hnone, textFrom_listed, params_append, params_words, params_table, params_listed,
        List.append_nil, List.length_nil, Nat.add_zero, String.append_assoc]

theorem text_insert (e : Entity) (data : Record) :
    (insert e data).text = insertionText e ((insertion e data).map (·.column))
      (sources e (insertion e data)) :=
  textFrom_insert 1 e data

/-! ### What is written at a position -/

/-- A text stands for what is assigned at a position: the placeholder of the parameter with the
number of the position, which is the value, converted to the type of the column if this is declared;
or the time. -/
inductive IsSourceAt (e : Entity) (params : List Value) (i : Nat) : Assignment → String → Prop
  | value {column : String} {v : Value} (bound : params[i]? = some v) :
      IsSourceAt e params i ⟨column, some v⟩
        (Piece.placeholder (i + 1) ((e.column? column).map (·.pgType)))
  | time {column : String} : IsSourceAt e params i ⟨column, none⟩ "NOW()"

/-- An assignment with a value is one of the data, and the ones before it have values, too. -/
theorem of_getElem?_insertion {e : Entity} {data : Record} {i : Nat} {column : String} {v : Value}
    (h : (insertion e data)[i]? = some ⟨column, some v⟩) :
    (e.writable data)[i]? = some (column, v) ∧
      (assignedValues ((insertion e data).take i)).length = i := by
  have hlt : i < (given (e.writable data)).length := by
    by_contra hge
    rw [insertion_eq, List.getElem?_append_right (Nat.le_of_not_lt hge)] at h
    obtain ⟨name, -, hname⟩ := List.mem_map.mp (List.mem_of_getElem? h)
    cases hname
  have hvalues : assignedValues ((given (e.writable data)).take i) =
      ((e.writable data).take i).map Prod.snd := by
    rw [given, ← List.map_take]
    have happend := @assignedValues_given_append ((e.writable data).take i) []
      (List.forall_mem_nil _)
    rwa [List.append_nil] at happend
  have hlength : i < (e.writable data).length := by
    rwa [given, List.length_map] at hlt
  constructor
  · rw [insertion_eq, List.getElem?_append_left hlt, given, List.getElem?_map,
      Option.map_eq_some_iff] at h
    obtain ⟨⟨key, value⟩, hmember, hassigned⟩ := h
    cases hassigned
    exact hmember
  · rw [insertion_eq, List.take_append_of_le_length hlt.le, hvalues, List.length_map,
      List.length_take_of_le hlength.le]

/-- Each assignment has its text at its position. -/
theorem isSourceAt_sources {e : Entity} {data : Record} {i : Nat} {a : Assignment}
    (h : (insertion e data)[i]? = some a) :
    ∃ source, (sources e (insertion e data))[i]? = some source ∧
      IsSourceAt e (insert e data).params i a source := by
  have hpart : ((insertion e data).map (Assignment.source e))[i]? = some (a.source e) := by
    rw [List.getElem?_map, h]
    rfl
  refine ⟨_, getElem?_partTexts hpart 1, ?_⟩
  obtain ⟨column, value⟩ := a
  cases value with
  | none =>
      have htime (number : Nat) : textFrom number (words "NOW()") = "NOW()" := textFrom_words _ _
      show IsSourceAt e _ i _ (textFrom _ (words "NOW()"))
      rw [htime]
      exact .time
  | some v =>
      obtain ⟨hmember, hbefore⟩ := of_getElem?_insertion h
      have hvalues : (((insertion e data).map (Assignment.source e)).take i).flatMap params =
          assignedValues ((insertion e data).take i) := by
        rw [← List.map_take, List.flatMap_map, assignedValues]
        exact congrArg (fun f => List.flatMap f _) (funext (params_source e))
      have hbound : (insert e data).params[i]? = some v := by
        rw [params_insert, List.getElem?_map, hmember]
        rfl
      show IsSourceAt e _ i _ (textFrom _ (placeholder e column v))
      rw [textFrom_placeholder, hvalues, hbefore, Nat.add_comm 1 i]
      exact .value hbound

end Sql

/-! ### The statement for a new row -/

/-- The statement for a new row of an entity of a configuration lists columns and values, the
same number of both: the columns are those that the row is to be made of, and the value at each
position is the placeholder of the parameter that is the value in the data, or the time.  No column
is listed twice unless the two timestamps are one column that the data do not give. -/
theorem insert_lists_columns_once_iff {config : Configuration} {m : Model}
    (hm : Model.resolve config = .ok m) (he : e ∈ m.entities) (hdata : (Record.keys data).Nodup) :
    ∃ (assignments : List Assignment) (sources : List String),
      (Sql.insert e data).text = insertionText e (assignments.map (·.column)) sources ∧
        sources.length = assignments.length ∧
        (∀ a, a ∈ assignments ↔ Adds e data a) ∧
        (∀ i a, assignments[i]? = some a →
          ∃ source, sources[i]? = some source ∧
            IsSourceAt e (Sql.insert e data).params i a source) ∧
        ((assignments.map (·.column)).Nodup ↔
          (e.createdAt = e.updatedAt → e.columns = [] ∨ e.createdAt ∈ Record.keys data)) := by
  have hlength : (sources e (insertion e data)).length = (insertion e data).length := by
    rw [sources, Statement.length_partTexts, List.length_map]
  have hstamps : e.stamps e.createdAt data = false ↔
      e.columns = [] ∨ e.createdAt ∈ Record.keys data := by
    rw [← Bool.not_eq_true, stamps_iff, declares_createdAt_iff hm he]
    tauto
  refine ⟨insertion e data, sources e (insertion e data), text_insert e data, hlength,
    fun a => mem_insertion, fun i a => isSourceAt_sources, ?_⟩
  rw [nodup_columns_insertion_iff hdata, hstamps]

open Orders in
/-- Of an article and a colour of a new order the article is written, and both timestamps. -/
theorem insert_lists_columns_once_order :
    let data : Record := [("article", .string "Lamp"), ("colour", .string "red")]
    let s := Sql.insert order data
    Model.resolve ⟨[orders], []⟩ = .ok ⟨[order]⟩ ∧ (Record.keys data).Nodup ∧
      (∃ (assignments : List Assignment) (sources : List String),
        s.text = insertionText order (assignments.map (·.column)) sources ∧
          sources.length = assignments.length ∧
          (∀ a, a ∈ assignments ↔ Adds order data a) ∧ (assignments.map (·.column)).Nodup) ∧
      s.text = "INSERT INTO \"public\".\"orders\" AS main (\"article\", \"created_at\", " ++
        "\"updated_at\") VALUES ($1::text, NOW(), NOW()) RETURNING main.\"id\" AS \"id\", " ++
        "main.\"article\" AS \"article\", main.\"created_at\" AS \"created_at\", " ++
        "main.\"updated_at\" AS \"updated_at\"" ∧
      s.params = [.string "Lamp"] := by
  intro data s
  have hresolve : Model.resolve ⟨[orders], []⟩ = .ok ⟨[order]⟩ := rfl
  have hdata : (Record.keys data).Nodup := by decide
  obtain ⟨assignments, sources, htext, hlength, hassignments, -, hnodup⟩ :=
    insert_lists_columns_once_iff hresolve (List.mem_singleton.mpr rfl) hdata
  have hapart : order.createdAt ≠ order.updatedAt := by decide
  exact ⟨hresolve, hdata,
    ⟨assignments, sources, htext, hlength, hassignments, hnodup.mpr fun heq => absurd heq hapart⟩,
    by decide +kernel, rfl⟩

/-- Orders whose two timestamps are one column. -/
def Orders.stampedOrders : EntityDeclaration :=
  { Orders.orders with
    createdAt := "stamped_at", updatedAt := "stamped_at"
    columns := Orders.orders.columns ++ [⟨"stamped_at", .simple "timestamptz", false, none⟩] }

open Orders in
/-- The one timestamp of an order is listed twice. -/
theorem insert_lists_column_twice_order :
    let e := entityOf [] stampedOrders
    let data : Record := [("article", .string "Lamp")]
    Model.resolve ⟨[stampedOrders], []⟩ = .ok ⟨[e]⟩ ∧ (Record.keys data).Nodup ∧
      (Sql.insert e data).text = "INSERT INTO \"public\".\"orders\" AS main (\"article\", " ++
        "\"stamped_at\", \"stamped_at\") VALUES ($1::text, NOW(), NOW()) RETURNING " ++
        "main.\"id\" AS \"id\", main.\"article\" AS \"article\", " ++
        "main.\"stamped_at\" AS \"stamped_at\"" := by
  intro e data
  have hresolve : Model.resolve ⟨[stampedOrders], []⟩ = .ok ⟨[e]⟩ := rfl
  have hdata : (Record.keys data).Nodup := by decide
  exact ⟨hresolve, hdata, by decide +kernel⟩

end EntityService
