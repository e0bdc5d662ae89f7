import EntityService.Proofs.SelectText

/-!
# What the query for a plan gives

The entries in the text of the query for a plan: the columns of the projection, one query for each
relation that is loaded, with its own entries, and one for each count.

## Main definitions

* `Entry.ofTree` — the entry for the query of a relation
* `planEntries` — the entries for a plan
* `planItems`, `planOutputs` — the same as items and as outputs

## Main results

* `isSubquery_subquery`, `emitsAll_countSubqueries` — what is read for relations and for counts
* `readSelect_select` — the entries of the query for a plan
* `selectItems_select`, `selectOutputs_select` — its items and its outputs

## Design notes

The entries of a forest go by its trees, with the numbers that the aliases get.  Items and outputs
say nothing of aliases, so they go by the trees alone.
-/

namespace EntityService.Sql

open EntityService.Json EntityService.Model EntityService.Query Reader Statement

/-! ### Columns -/

/-- A column under the name that it has in its table. -/
def Entry.kept (name : String) : Entry := .column (some name) name

/-- The entries for the columns of the rows of a relation: those that are not hidden, or all by a
star if the entity declares none. -/
def relatedEntries (target : Entity) : List Entry :=
  if target.columns.isEmpty then [.star]
  else (target.columns.filter fun c => !target.hides c.name).map fun c => .kept c.name

/-- The entries of a projection: the columns that it names, or those of the entity. -/
def projectionEntries (e : Entity) (columns : List String) : List Entry :=
  if selectsAll columns then
    if e.columns.isEmpty then [.star] else e.columns.map fun c => .kept c.name
  else columns.map .kept

theorem emitsAll_relatedColumns {rowAlias : String} (h : IsAlias rowAlias) (target : Entity) :
    EmitsAll (relatedColumns target rowAlias) (relatedEntries target) := by
  unfold relatedColumns relatedEntries
  split
  · exact .cons (emits_star h) .nil
  · exact .map (fun c => emits_output h c.name (some c)) _

theorem emitsAll_projection (e : Entity) {rowAlias : String} (h : IsAlias rowAlias)
    (columns : List String) :
    EmitsAll (projection e rowAlias columns) (projectionEntries e columns) := by
  unfold projection projectionEntries
  cases selectsAll columns with
  | false => exact .map (fun name => emits_output h name _) columns
  | true =>
      change EmitsAll (if e.columns.isEmpty then _ else _) (if e.columns.isEmpty then _ else _)
      split
      · exact .cons (emits_star h) .nil
      · exact .map (fun c => emits_output h c.name (some c)) e.columns

/-! ### Relations -/

mutual
/-- The entry for the query of a relation, joined with the rows known by `parent`.  `used` is the
number used before. -/
def Entry.ofTree (parent : String) (used : Nat) : LoadTree → Entry
  | .node r target children =>
    let rowAlias := relationAlias (used + 1)
    .query r.name (relatedEntries target ++ ofTrees rowAlias (used + 1) children)
      (joinTokens r target rowAlias parent ++ endTokens r target rowAlias)

/-- The entries for the queries of relations. -/
def Entry.ofTrees (parent : String) (used : Nat) : List LoadTree → List Entry
  | [] => []
  | tree :: rest => ofTree parent used tree :: ofTrees parent (subquery parent used tree).2 rest
end

mutual
theorem isSubquery_subquery {parent : String} (hp : IsAlias parent) (used : Nat)
    (tree : LoadTree) {name : String} {entries : List Entry} {clauses : List Token}
    (h : Entry.ofTree parent used tree = .query name entries clauses) :
    IsSubquery (subquery parent used tree).1 ⟨entries, clauses⟩ := by
  cases tree with
  | node r target children =>
      have ha : IsAlias (relationAlias (used + 1)) := isAlias_append_toString (by decide) _
      rw [Entry.ofTree, Entry.query.injEq] at h
      obtain ⟨-, rfl, rfl⟩ := h
      rw [subquery]
      refine isSubquery_relatedSelect ha hp r target ?_
      exact (emitsAll_relatedColumns ha target).append (emitsAll_subqueries ha (used + 1) children)

theorem emitsAll_subqueries {parent : String} (hp : IsAlias parent) (used : Nat)
    (forest : List LoadTree) :
    EmitsAll (subqueries parent used forest).1 (Entry.ofTrees parent used forest) := by
  cases forest with
  | nil =>
      rw [subqueries, Entry.ofTrees]
      exact .nil
  | cons tree rest =>
      cases tree with
      | node r target children =>
          obtain ⟨entries, clauses, hentry⟩ : ∃ entries clauses,
              Entry.ofTree parent used (.node r target children) = .query r.name entries clauses :=
            ⟨_, _, by rw [Entry.ofTree]⟩
          have hquery := (isSubquery_subquery hp used (.node r target children) hentry).emits r.name
          rw [subqueries, Entry.ofTrees, hentry]
          exact .cons hquery (emitsAll_subqueries hp _ rest)
end

/-! ### Counts -/

/-- The entries for the relations to count that are known.  `used` is the number used before. -/
def countEntries (m : Model) (e : Entity) (used : Nat) : List String → List Entry
  | [] => []
  | name :: rest =>
    match m.hop? e name with
    | some hop =>
      .query (Naming.countKey name) []
          (joinTokens hop.relation hop.target (countAlias (used + 1)) mainAlias) ::
        countEntries m e (used + 1) rest
    | none => countEntries m e used rest

theorem countSubquery?_eq (m : Model) (e : Entity) (number : Nat) (name : String) :
    countSubquery? m e number name = (m.hop? e name).map fun hop =>
      words "(SELECT COUNT(*) FROM " ++
        relatedRows hop.relation hop.target (countAlias number) mainAlias ++ words ") AS " ++
          [.name (Naming.countKey name)] := by
  unfold countSubquery? Model.hop?
  cases e.relation? name with
  | none => rfl
  | some r =>
      change (m.entity? r.target).bind _ = ((m.entity? r.target).bind _).map _
      cases m.entity? r.target <;> rfl

theorem emitsAll_countSubqueries (m : Model) (e : Entity) (used : Nat) (names : List String) :
    EmitsAll (countSubqueries m e used names) (countEntries m e used names) := by
  induction names generalizing used with
  | nil => exact .nil
  | cons name rest ih =>
      unfold countSubqueries countEntries
      rw [countSubquery?_eq]
      cases m.hop? e name with
      | none => exact ih used
      | some hop =>
          have ha : IsAlias (countAlias (used + 1)) := isAlias_append_toString (by decide) _
          exact .cons (emits_countSubquery ha hop.relation hop.target _) (ih (used + 1))

/-! ### The query for a plan -/

/-- The entries for a plan: the columns of the projection, the relations and the counts. -/
def planEntries (m : Model) (p : Plan) (columns : List String) : List Entry :=
  let forest := relationForest m p.entity p.calls.relations
  projectionEntries p.entity columns ++ Entry.ofTrees mainAlias 0 forest ++
    countEntries m p.entity (subqueries mainAlias 0 forest).2 p.calls.counts

section Select

variable (m : Model) (p : Plan) (columns : List String) (window : Option (Nat × Nat))

theorem emitsAll_outputParts : EmitsAll (outputParts m p columns) (planEntries m p columns) := by
  have hmain : IsAlias mainAlias := by decide
  refine ((emitsAll_projection p.entity hmain columns).append ?_).append ?_
  · exact emitsAll_subqueries hmain 0 _
  · exact emitsAll_countSubqueries m p.entity _ p.calls.counts

/-- The query for a plan begins with its list of columns and its table. -/
theorem exists_select_eq :
    ∃ rest, select m p columns window =
      selectStart (outputParts m p columns) p.entity ++ rest := by
  refine ⟨wherePart p ++ (orderPart p ++ (limitPart ((window.map Prod.fst).or p.calls.limit?) ++
    offsetPart (window.map Prod.snd))), ?_⟩
  simp only [select_eq, selectStart, List.append_assoc]

/-- The query for a plan has the entries for the plan, and its table comes first after them. -/
theorem readSelect_select :
    (readSelect (select m p columns window).text).entries = planEntries m p columns ∧
      tableTokens p.entity ++ chars (" " ++ mainAlias) <+:
        (readSelect (select m p columns window).text).clauses := by
  obtain ⟨rest, hrest⟩ := exists_select_eq m p columns window
  rw [hrest]
  exact readSelect_text (emitsAll_outputParts m p columns) (part_of_mem_outputParts m p columns)
    (params_of_mem_outputParts m p columns) p.entity rest

end Select

/-! ### The items of a query for a plan -/

/-- A column under the name that it has in its table. -/
def Item.kept (name : String) : Item := .column (some name) name

/-- The items for the columns of the rows of a relation. -/
def relatedItems (target : Entity) : List Item :=
  if target.columns.isEmpty then [.star]
  else (target.columns.filter fun c => !target.hides c.name).map fun c => .kept c.name

/-- The items of a projection. -/
def projectionItems (e : Entity) (columns : List String) : List Item :=
  if selectsAll columns then
    if e.columns.isEmpty then [.star] else e.columns.map fun c => .kept c.name
  else columns.map .kept

mutual
/-- The item for the subquery of a relation. -/
def Item.ofTree : LoadTree → Item
  | .node r target children => .subquery r.name (relatedItems target ++ ofTrees children)

/-- The items for the subqueries of relations. -/
def Item.ofTrees : List LoadTree → List Item
  | [] => []
  | tree :: rest => ofTree tree :: ofTrees rest
end

/-- The relations to count that are known. -/
def knownCounts (m : Model) (e : Entity) (names : List String) : List String :=
  names.filter fun name => (m.hop? e name).isSome

/-- The items for a plan: the columns of the projection, the relations and the counts. -/
def planItems (m : Model) (p : Plan) (columns : List String) : List Item :=
  projectionItems p.entity columns ++
    Item.ofTrees (relationForest m p.entity p.calls.relations) ++
    (knownCounts m p.entity p.calls.counts).map fun name => .subquery (Naming.countKey name) []

namespace View

variable {α : Type} {v : View α}

/-- Columns under their own names that are taken for one thing each. -/
theorem ofEntries_kept {item : String → α} (h : ∀ name, v.column (some name) name = [item name])
    {β : Type} (name : β → String) (xs : List β) :
    v.ofEntries (xs.map fun x => .kept (name x)) = xs.map fun x => item (name x) :=
  v.ofEntries_map (fun x => by rw [Entry.kept, ofEntry, h]) xs

/-- Queries for counts that are taken for one thing each, whatever their aliases. -/
theorem ofEntries_countEntries {item : String → α}
    (h : ∀ name clauses, v.query name [] clauses = [item name]) (m : Model) (e : Entity)
    (used : Nat) (names : List String) :
    v.ofEntries (countEntries m e used names) =
      (knownCounts m e names).map fun name => item (Naming.countKey name) := by
  induction names generalizing used with
  | nil => rw [countEntries, ofEntries]; rfl
  | cons name rest ih =>
      unfold countEntries knownCounts
      rw [List.filter_cons]
      cases m.hop? e name with
      | none => exact ih used
      | some hop =>
          change v.ofEntries (.query _ _ _ :: _) = item _ :: _
          rw [ofEntries, ofEntry, ofEntries, h, ih]
          rfl

end View

theorem items_relatedEntries (target : Entity) :
    Item.view.ofEntries (relatedEntries target) = relatedItems target := by
  unfold relatedEntries relatedItems
  split
  · rw [View.ofEntries_singleton, View.ofEntry]; rfl
  · exact View.ofEntries_kept (fun _ => rfl) Column.name _

theorem items_projectionEntries (e : Entity) (columns : List String) :
    Item.view.ofEntries (projectionEntries e columns) = projectionItems e columns := by
  unfold projectionEntries projectionItems
  split
  · split
    · rw [View.ofEntries_singleton, View.ofEntry]; rfl
    · exact View.ofEntries_kept (fun _ => rfl) Column.name _
  · exact View.ofEntries_kept (fun _ => rfl) id columns

mutual
theorem items_ofTree (parent : String) (used : Nat) (tree : LoadTree) :
    Item.view.ofEntry (Entry.ofTree parent used tree) = [Item.ofTree tree] := by
  cases tree with
  | node r target children =>
      rw [Entry.ofTree, Item.ofTree, View.ofEntry, View.ofEntries_append, items_relatedEntries,
        items_ofTrees _ _ children]
      rfl

theorem items_ofTrees (parent : String) (used : Nat) (forest : List LoadTree) :
    Item.view.ofEntries (Entry.ofTrees parent used forest) = Item.ofTrees forest := by
  cases forest with
  | nil => rw [Entry.ofTrees, Item.ofTrees, View.ofEntries]
  | cons tree rest =>
      rw [Entry.ofTrees, Item.ofTrees, View.ofEntries, items_ofTree _ _ tree,
        items_ofTrees _ _ rest]
      rfl
end

/-- The query for a plan has the items for the plan. -/
theorem selectItems_select (m : Model) (p : Plan) (columns : List String)
    (window : Option (Nat × Nat)) :
    selectItems (select m p columns window).text = planItems m p columns := by
  have hcounts := View.ofEntries_countEntries (v := Item.view) (fun _ _ => rfl) m p.entity
  rw [selectItems, (readSelect_select m p columns window).1, planEntries, planItems,
    View.ofEntries_append, View.ofEntries_append, items_projectionEntries, items_ofTrees,
    hcounts]

/-! ### The outputs of a query for a plan -/

mutual
/-- The output for the subquery of a relation. -/
def Output.ofTree : LoadTree → Output
  | .node r target children =>
    .subquery r.name (((target.columns.filter fun c => !target.hides c.name).map fun c =>
      .column c.name) ++ ofTrees children)

/-- The outputs for the subqueries of relations. -/
def Output.ofTrees : List LoadTree → List Output
  | [] => []
  | tree :: rest => ofTree tree :: ofTrees rest
end

/-- The names of the columns of a projection. -/
def projectionNames (e : Entity) (columns : List String) : List String :=
  if selectsAll columns then e.columns.map (·.name) else columns

/-- The outputs for a plan: the columns of the projection, the relations and the counts. -/
def planOutputs (m : Model) (p : Plan) (columns : List String) : List Output :=
  (projectionNames p.entity columns).map .column ++
    Output.ofTrees (relationForest m p.entity p.calls.relations) ++
    (knownCounts m p.entity p.calls.counts).map fun name => .subquery (Naming.countKey name) []

/-- A star has no outputs by name. -/
theorem outputs_star : Output.view.ofEntries [.star] = [] := by
  rw [View.ofEntries_singleton, View.ofEntry]
  rfl

theorem outputs_relatedEntries (target : Entity) :
    Output.view.ofEntries (relatedEntries target) =
      (target.columns.filter fun c => !target.hides c.name).map fun c => .column c.name := by
  unfold relatedEntries
  split
  · next hnone =>
      rw [outputs_star, List.isEmpty_iff.mp hnone]
      rfl
  · exact View.ofEntries_kept (fun _ => rfl) Column.name _

theorem outputs_projectionEntries (e : Entity) (columns : List String) :
    Output.view.ofEntries (projectionEntries e columns) =
      (projectionNames e columns).map .column := by
  unfold projectionEntries projectionNames
  split
  · rw [List.map_map]
    split
    · next hnone =>
        rw [outputs_star, List.isEmpty_iff.mp hnone]
        rfl
    · exact View.ofEntries_kept (fun _ => rfl) Column.name e.columns
  · exact View.ofEntries_kept (fun _ => rfl) id columns

mutual
theorem outputs_ofTree (parent : String) (used : Nat) (tree : LoadTree) :
    Output.view.ofEntry (Entry.ofTree parent used tree) = [Output.ofTree tree] := by
  cases tree with
  | node r target children =>
      rw [Entry.ofTree, Output.ofTree, View.ofEntry, View.ofEntries_append,
        outputs_relatedEntries, outputs_ofTrees _ _ children]
      rfl

theorem outputs_ofTrees (parent : String) (used : Nat) (forest : List LoadTree) :
    Output.view.ofEntries (Entry.ofTrees parent used forest) = Output.ofTrees forest := by
  cases forest with
  | nil => rw [Entry.ofTrees, Output.ofTrees, View.ofEntries]
  | cons tree rest =>
      rw [Entry.ofTrees, Output.ofTrees, View.ofEntries, outputs_ofTree _ _ tree,
        outputs_ofTrees _ _ rest]
      rfl
end

/-- The query for a plan has the outputs for the plan. -/
theorem selectOutputs_select (m : Model) (p : Plan) (columns : List String)
    (window : Option (Nat × Nat)) :
    selectOutputs (select m p columns window).text = planOutputs m p columns := by
  have hcounts := View.ofEntries_countEntries (v := Output.view) (fun _ _ => rfl) m p.entity
  rw [selectOutputs, (readSelect_select m p columns window).1, planEntries, planOutputs,
    View.ofEntries_append, View.ofEntries_append, outputs_projectionEntries, outputs_ofTrees,
    hcounts]

example : (selectOutputs ("SELECT t.\"id\" AS \"id\", (SELECT row_to_json(sub) FROM (SELECT " ++
    "r1.\"name\" AS \"name\" FROM \"a AS b\" r1 LIMIT 1) sub) AS \"author\" FROM " ++
    "\"books\" t")).map Output.name = ["id", "author"] := by
  decide +kernel

end EntityService.Sql
