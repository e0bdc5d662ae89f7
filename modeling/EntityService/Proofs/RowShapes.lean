import EntityService.Proofs.RelationPaths
import EntityService.Proofs.SelectItems
import EntityService.Proofs.StoredRows

/-!
# The shapes of rows

A row that the store in memory gives out has the keys that the query for the same plan has outputs,
and so has every row that is loaded with it.

## Main definitions

* `objectsAt` — the rows that are loaded with a row along relations
* `subqueryAt?` — the outputs of a subquery along names of subqueries
* `IsShaped` — a row and the rows loaded with it have the keys that a query has outputs

## Main results

* `hasKeys_of_mem_objectsAt` — rows loaded along a relation have the keys of its subquery
* `rows_shaped_as_selected` — the rows that a store gives are shaped as the query says

## Design notes

The rows and the query are compared along the paths of the plan.  The induction is on the path, with
the rows loaded along its first relation in the place of the rows of the plan.
-/

namespace EntityService

open EntityService.Config EntityService.Json EntityService.Model EntityService.Query
open EntityService.Sql EntityService.Store EntityService.Text

/-! ### Loaded rows and outputs along names -/

/-- The keys of a row are the names of outputs. -/
def HasKeys (row : Record) (outputs : List Output) : Prop :=
  ∀ key, key ∈ Record.keys row ↔ key ∈ outputs.map Output.name

/-- The rows in a value: that of an object, or those of an array of objects. -/
def objectsIn : Value → List Record
  | .object members => [members]
  | .array items => items.flatMap fun
    | .object members => [members]
    | _ => []
  | _ => []

/-- The rows that are loaded with a row along the names of relations. -/
def objectsAt : List String → Record → List Record
  | [], row => [row]
  | name :: rest, row => (objectsIn (Record.cell row name)).flatMap (objectsAt rest)

/-- The outputs of the first subquery with a name. -/
def subquery? (name : String) (outputs : List Output) : Option (List Output) :=
  outputs.findSome? fun
    | .subquery other inner => if other = name then some inner else none
    | .column _ => none

/-- The outputs of a subquery along the names of subqueries. -/
def subqueryAt? : List String → List Output → Option (List Output)
  | [], outputs => some outputs
  | name :: rest, outputs => (subquery? name outputs).bind (subqueryAt? rest)

/-- A row has the keys that a query has outputs, and the rows that are loaded with it along the
paths have the keys that the subqueries there have outputs. -/
def IsShaped (paths : List (List String)) (outputs : List Output) (row : Record) : Prop :=
  HasKeys row outputs ∧ ∀ path ∈ paths, ∀ before, before <+: path →
    ∀ loaded ∈ objectsAt before row, ∃ inner ∈ subqueryAt? before outputs, HasKeys loaded inner

/-! ### Outputs of forests -/

/-- The outputs of the subquery for related rows. -/
def relatedOutputs (target : Entity) (children : List LoadTree) : List Output :=
  ((target.columns.filter fun c => !target.hides c.name).map fun c => .column c.name) ++
    Output.ofTrees children

theorem ofTree_eq (tree : LoadTree) :
    Output.ofTree tree = .subquery tree.name (relatedOutputs tree.target tree.children) := by
  cases tree with
  | node r target children => rw [Output.ofTree]; rfl

theorem ofTrees_eq_map (forest : List LoadTree) :
    Output.ofTrees forest = forest.map Output.ofTree := by
  induction forest with
  | nil => rw [Output.ofTrees]; rfl
  | cons tree rest ih => rw [Output.ofTrees, ih, List.map_cons]

theorem map_name_ofTrees (forest : List LoadTree) :
    (Output.ofTrees forest).map Output.name = forest.map LoadTree.name := by
  rw [ofTrees_eq_map, List.map_map]
  refine List.map_congr_left ?_
  intro tree _
  rw [Function.comp_apply, ofTree_eq]
  rfl

/-- Columns are no subqueries. -/
theorem subquery?_append_columns {α : Type} (columnName : α → String) (columns : List α)
    (name : String) (outputs : List Output) :
    subquery? name ((columns.map fun c => .column (columnName c)) ++ outputs) =
      subquery? name outputs := by
  induction columns with
  | nil => rfl
  | cons first rest ih => exact ih

/-- The subquery of the first segment of a path is that for the rests of the paths. -/
theorem subquery?_ofTrees {m : Model} {e : Entity} {paths : List (List String)}
    (h : AllKnown m e paths) {name : String} {rest : List String} (hpath : name :: rest ∈ paths)
    {hop : Hop} (hhop : m.hop? e name = some hop) (others : List Output) :
    subquery? name (Output.ofTrees (forestOf m e paths) ++ others) =
      some (relatedOutputs hop.target (forestOf m hop.target (rests name paths))) := by
  have hforest := isForest_forestOf h
  -- every tree with the name has the outputs, so the first one has them
  have houtputs : ∀ tree ∈ forestOf m e paths, tree.name = name →
      relatedOutputs tree.target tree.children =
        relatedOutputs hop.target (forestOf m hop.target (rests name paths)) := by
    rintro tree htree rfl
    have hsame : ⟨tree.relation, tree.target⟩ = hop :=
      Option.some.inj ((hforest.hop tree htree).symm.trans hhop)
    rw [hforest.children tree htree, ← hsame]
  obtain ⟨found, hfound, hname⟩ := hforest.complete name rest hpath
  rw [ofTrees_eq_map]
  clear hforest hpath
  generalize forestOf m e paths = forest at houtputs hfound
  induction forest with
  | nil => cases hfound
  | cons tree trees ih =>
      rw [List.map_cons, List.cons_append, ofTree_eq, subquery?, List.findSome?_cons]
      by_cases hfirst : tree.name = name
      · simp only [hfirst, if_true]
        rw [houtputs tree List.mem_cons_self hfirst]
      · simp only [hfirst, if_false]
        refine ih (fun other hother => houtputs other (List.mem_cons_of_mem _ hother)) ?_
        refine (List.mem_cons.mp hfound).resolve_left ?_
        rintro rfl
        exact hfirst hname

theorem subquery?_relatedOutputs {m : Model} {e : Entity} {paths : List (List String)}
    (h : AllKnown m e paths) {name : String} {rest : List String} (hpath : name :: rest ∈ paths)
    {hop : Hop} (hhop : m.hop? e name = some hop) :
    subquery? name (relatedOutputs e (forestOf m e paths)) =
      some (relatedOutputs hop.target (forestOf m hop.target (rests name paths))) := by
  have hfirst := subquery?_ofTrees h hpath hhop []
  rw [List.append_nil] at hfirst
  rw [relatedOutputs, subquery?_append_columns, hfirst]

/-! ### Rows that are loaded -/

section Loaded

variable {m : Model} {store : Memory}

theorem related?_eq (e : Entity) (row : Record) (name : String) :
    store.related? e row name = (store.model.hop? e name).map fun hop =>
      (hop.relation, hop.target, store.relatedRows hop.relation hop.target row) := by
  unfold Memory.related? Model.hop?
  cases e.relation? name with
  | none => rfl
  | some r =>
      change (store.model.entity? r.target).bind _ =
        ((store.model.entity? r.target).bind _).map _
      cases store.model.entity? r.target <;> rfl

/-- What is loaded for a row: for each first segment of the paths that is known, the rows of its
target with what is loaded along the rests. -/
theorem mem_loaded {e : Entity} {paths : List (List String)} {depth : Nat} {row : Record}
    {name : String} {value : Value} :
    (name, value) ∈ store.loaded (depth + 1) e row paths ↔
      (∃ rest, name :: rest ∈ paths) ∧ ∃ hop, store.model.hop? e name = some hop ∧
        value = relationValue hop.relation.kind
          ((store.relatedRows hop.relation hop.target row).map fun other =>
            Record.putAll (hop.target.withoutHidden other)
              (store.loaded depth hop.target other (rests name paths))) := by
  rw [Memory.loaded, List.mem_filterMap]
  constructor
  · rintro ⟨⟨head, nested⟩, hhead, hvalue⟩
    dsimp only at hvalue
    rw [related?_eq, Option.map_map, Option.map_eq_some_iff] at hvalue
    obtain ⟨hop, hhop, heq⟩ := hvalue
    obtain ⟨rfl, rfl⟩ := Prod.mk.inj heq
    obtain ⟨rfl, hfirst⟩ := mem_pathHeads hhead
    exact ⟨hfirst, hop, hhop, rfl⟩
  · rintro ⟨⟨rest, hpath⟩, hop, hhop, rfl⟩
    obtain ⟨nested, hhead⟩ := exists_mem_pathHeads hpath
    obtain rfl := (mem_pathHeads hhead).1
    refine ⟨(name, rests name paths), hhead, ?_⟩
    dsimp only
    rw [related?_eq, hhop]
    rfl

/-- A first segment of a known path is the name of a relation. -/
theorem AllKnown.exists_hop {e : Entity} {paths : List (List String)} (h : AllKnown m e paths)
    {name : String} {rest : List String} (hpath : name :: rest ∈ paths) :
    ∃ hop, m.hop? e name = some hop := by
  have hknown := h _ hpath
  rw [Model.chain?_cons] at hknown
  cases hhop : m.hop? e name with
  | none =>
      rw [hhop] at hknown
      cases hknown
  | some hop => exact ⟨hop, rfl⟩

/-- The keys of what is loaded are the first segments of the paths. -/
theorem mem_keys_loaded {e : Entity} {paths : List (List String)}
    (h : AllKnown store.model e paths) {depth : Nat} (hdepth : ∀ path ∈ paths, path.length ≤ depth)
    (row : Record) (name : String) :
    name ∈ Record.keys (store.loaded depth e row paths) ↔ ∃ rest, name :: rest ∈ paths := by
  cases depth with
  | zero =>
      refine iff_of_false List.not_mem_nil ?_
      rintro ⟨rest, hpath⟩
      exact absurd (hdepth _ hpath) (Nat.not_succ_le_zero _)
  | succ depth =>
      constructor
      · intro hname
        obtain ⟨member, hmember, rfl⟩ := List.mem_map.mp hname
        exact (mem_loaded.mp hmember).1
      · rintro ⟨rest, hpath⟩
        obtain ⟨hop, hhop⟩ := h.exists_hop hpath
        exact Record.mem_keys_of_mem (mem_loaded.mpr ⟨⟨rest, hpath⟩, hop, hhop, rfl⟩)

theorem mem_objectsIn_relationValue {kind : RelationKind} {rows : List Record} {row : Record}
    (h : row ∈ objectsIn (relationValue kind rows)) : row ∈ rows := by
  cases kind with
  | toOne =>
      cases rows with
      | nil => cases h
      | cons first rest =>
          obtain rfl := List.mem_singleton.mp h
          exact List.mem_cons_self
  | toMany =>
      obtain ⟨value, hvalue, hrow⟩ := List.mem_flatMap.mp h
      obtain ⟨other, hother, rfl⟩ := List.mem_map.mp hvalue
      obtain rfl := List.mem_singleton.mp hrow
      exact hother

theorem mem_names_forestOf {e : Entity} {paths : List (List String)} (h : AllKnown m e paths)
    (name : String) :
    name ∈ (forestOf m e paths).map LoadTree.name ↔ ∃ rest, name :: rest ∈ paths := by
  have hforest := isForest_forestOf h
  rw [List.mem_map]
  constructor
  · rintro ⟨tree, htree, rfl⟩
    exact hforest.first tree htree
  · rintro ⟨rest, hpath⟩
    exact hforest.complete name rest hpath

/-- Related rows without hidden columns, with what is loaded for them, have the keys that their
subquery has outputs. -/
theorem hasKeys_related {target : Entity} {paths : List (List String)}
    (h : AllKnown store.model target paths) {depth : Nat}
    (hdepth : ∀ path ∈ paths, path.length ≤ depth) {row : Record} (hrow : HasColumns target row) :
    HasKeys (Record.putAll (target.withoutHidden row) (store.loaded depth target row paths))
      (relatedOutputs target (forestOf store.model target paths)) := by
  intro key
  have hcolumns : (key ∈ ((target.columns.filter fun c => !target.hides c.name).map fun c =>
      Output.column c.name).map Output.name) ↔ target.hides key = false ∧ target.declares key := by
    rw [declares_iff, List.map_map]
    constructor
    · intro hmem
      obtain ⟨c, hc, rfl⟩ := List.mem_map.mp hmem
      obtain ⟨hc, hshown⟩ := List.mem_filter.mp hc
      have hnot : target.hides c.name = false := by simpa using hshown
      exact ⟨hnot, List.mem_map_of_mem hc⟩
    · rintro ⟨hshown, hmem⟩
      obtain ⟨c, hc, rfl⟩ := List.mem_map.mp hmem
      exact List.mem_map.mpr ⟨c, List.mem_filter.mpr ⟨hc, by simpa using hshown⟩, rfl⟩
  rw [relatedOutputs, List.map_append, List.mem_append, hcolumns, map_name_ofTrees,
    mem_names_forestOf h, Record.mem_keys_putAll, mem_keys_loaded h hdepth, Entity.withoutHidden,
    Record.mem_keys_keep, hrow key, Bool.not_eq_true']

/-- The rows under the first segment of a path are rows of the target of its relation, with what is
loaded along the rests. -/
theorem of_mem_objectsIn {e : Entity} {paths : List (List String)}
    (h : AllKnown store.model e paths) {depth : Nat} (hdepth : ∀ path ∈ paths, path.length ≤ depth)
    {row base : Record} {name : String} {rest : List String} (hpath : name :: rest ∈ paths)
    {loaded : Record} (hloaded : loaded ∈ objectsIn
      (Record.cell (Record.putAll base (store.loaded depth e row paths)) name)) :
    ∃ hop depth', store.model.hop? e name = some hop ∧
      (∀ path ∈ rests name paths, path.length ≤ depth') ∧
      ∃ other ∈ store.rows hop.target.id, loaded = Record.putAll (hop.target.withoutHidden other)
        (store.loaded depth' hop.target other (rests name paths)) := by
  have hmem := @Record.mem_of_cell_putAll base _ name
    ((mem_keys_loaded h hdepth row name).mpr ⟨rest, hpath⟩)
  cases depth with
  | zero => exact absurd (hdepth _ hpath) (Nat.not_succ_le_zero _)
  | succ depth =>
      obtain ⟨-, hop, hhop, hvalue⟩ := mem_loaded.mp hmem
      rw [hvalue] at hloaded
      obtain ⟨other, hother, rfl⟩ := List.mem_map.mp (mem_objectsIn_relationValue hloaded)
      refine ⟨hop, depth, hhop, fun path hrest => ?_, other, ?_, rfl⟩
      · exact Nat.le_of_succ_le_succ (hdepth _ (mem_rests.mp hrest).1)
      · exact (List.mem_filter.mp (mem_sortRows.mp hother)).1

/-- What is left of a beginning of a path without its first segment is empty, or a beginning of a
rest. -/
theorem eq_nil_or_prefix_mem_rests {paths : List (List String)} {name : String}
    {before after : List String} (h : name :: before ++ after ∈ paths) :
    before = [] ∨ ∃ path ∈ rests name paths, before <+: path := by
  by_cases hnil : before = []
  · exact .inl hnil
  · refine .inr ⟨before ++ after, mem_rests.mpr ⟨h, ?_⟩, List.prefix_append before after⟩
    exact List.append_ne_nil_of_left_ne_nil hnil after

/-- Rows that are loaded along known relations have the keys that the subqueries there have
outputs. -/
theorem hasKeys_of_mem_objectsAt (hrows : store.Holds store.model HasColumns) {before : List String}
    {target : Entity} (htarget : target ∈ store.model.entities) {paths : List (List String)}
    (h : AllKnown store.model target paths) {depth : Nat}
    (hdepth : ∀ path ∈ paths, path.length ≤ depth) {row : Record}
    (hrow : row ∈ store.rows target.id)
    (hbefore : before = [] ∨ ∃ path ∈ paths, before <+: path) {loaded : Record}
    (hloaded : loaded ∈ objectsAt before
      (Record.putAll (target.withoutHidden row) (store.loaded depth target row paths))) :
    ∃ inner ∈ subqueryAt? before (relatedOutputs target (forestOf store.model target paths)),
      HasKeys loaded inner := by
  induction before generalizing target paths depth row with
  | nil =>
      obtain rfl := List.mem_singleton.mp hloaded
      exact ⟨_, rfl, hasKeys_related h hdepth (hrows target htarget row hrow)⟩
  | cons name before ih =>
      obtain ⟨path, hpath, after, rfl⟩ := hbefore.resolve_left (List.cons_ne_nil _ _)
      obtain ⟨first, hfirst, hnested⟩ := List.mem_flatMap.mp hloaded
      obtain ⟨hop, depth', hhop, hdepth', other, hother, rfl⟩ :=
        of_mem_objectsIn h hdepth hpath hfirst
      rw [subqueryAt?, subquery?_relatedOutputs h hpath hhop]
      exact ih (Model.of_hop? hhop).2.2 (h.rests hhop) hdepth' hother
        (eq_nil_or_prefix_mem_rests hpath) hnested

end Loaded

/-! ### Rows of plans -/

/-- The relation paths of a plan that lead from entity to entity, by their segments. -/
def knownRelations (m : Model) (p : Plan) : List (List String) :=
  (p.calls.relations.map (pieces '.')).filter fun path => (m.chain? p.entity path).isSome

theorem allKnown_knownRelations (m : Model) (p : Plan) :
    AllKnown m p.entity (knownRelations m p) :=
  allKnown_knownPaths m p.entity p.calls.relations

/-- The forest of a plan is that of its known paths. -/
theorem relationForest_eq (m : Model) (p : Plan) :
    relationForest m p.entity p.calls.relations = forestOf m p.entity (knownRelations m p) :=
  relationForest_eq_forestOf m p.entity p.calls.relations

theorem subquery?_planOutputs {m : Model} {p : Plan} {name : String} {rest : List String}
    (hpath : name :: rest ∈ knownRelations m p) {hop : Hop}
    (hhop : m.hop? p.entity name = some hop) (columns : List String) :
    subquery? name (planOutputs m p columns) =
      some (relatedOutputs hop.target
        (forestOf m hop.target (rests name (knownRelations m p)))) := by
  rw [planOutputs, List.append_assoc, relationForest_eq]
  exact (subquery?_append_columns id _ _ _).trans
    (subquery?_ofTrees (allKnown_knownRelations m p) hpath hhop _)

section Plans

variable {store : Memory} {p : Plan}

theorem knownPaths_eq (p : Plan) : store.knownPaths p = knownRelations store.model p := by
  unfold Memory.knownPaths knownRelations
  rw [List.filter_map]
  rfl

theorem length_le_depth {paths : List (List String)} {path : List String} (h : path ∈ paths) :
    path.length ≤ Memory.depth paths := by
  have hmax (lengths : List Nat) (start : Nat) :
      start ≤ lengths.foldl max start ∧ ∀ n ∈ lengths, n ≤ lengths.foldl max start := by
    induction lengths generalizing start with
    | nil => exact ⟨Nat.le_refl start, nofun⟩
    | cons n rest ih =>
        obtain ⟨hstart, hrest⟩ := ih (max start n)
        refine ⟨Nat.le_trans (Nat.le_max_left start n) hstart, ?_⟩
        exact List.forall_mem_cons.mpr ⟨Nat.le_trans (Nat.le_max_right start n) hstart, hrest⟩
  exact (hmax _ 0).2 _ (List.mem_map_of_mem h)

/-- The keys of a projected row are the names of the projection. -/
theorem mem_keys_projected {e : Entity} {row : Record} (hrow : HasColumns e row)
    (columns : List String) (key : String) :
    key ∈ Record.keys (Memory.projected columns row) ↔ key ∈ projectionNames e columns := by
  unfold Memory.projected projectionNames
  split
  · rw [hrow key, declares_iff]
  · rw [Record.ofList, Record.mem_keys_putAll, Record.keys, Record.keys, List.map_map]
    simp

/-- The counts of a row are those of known relations. -/
theorem mem_counted {row : Record} {member : String × Value} :
    member ∈ store.counted p row ↔ ∃ name ∈ p.calls.counts, ∃ hop,
      store.model.hop? p.entity name = some hop ∧
        member = (Naming.countKey name,
          .ofNat (store.relatedRows hop.relation hop.target row).length) := by
  rw [Memory.counted, List.mem_filterMap]
  simp only [related?_eq, Option.map_map, Option.map_eq_some_iff]
  constructor
  · rintro ⟨name, hname, hop, hhop, rfl⟩
    exact ⟨name, hname, hop, hhop, rfl⟩
  · rintro ⟨name, hname, hop, hhop, rfl⟩
    exact ⟨name, hname, hop, hhop, rfl⟩

theorem mem_keys_counted {row : Record} {key : String} :
    key ∈ Record.keys (store.counted p row) ↔
      key ∈ (knownCounts store.model p.entity p.calls.counts).map Naming.countKey := by
  rw [Record.keys, List.mem_map, List.mem_map]
  constructor
  · rintro ⟨member, hmember, rfl⟩
    obtain ⟨name, hname, hop, hhop, rfl⟩ := mem_counted.mp hmember
    exact ⟨name, List.mem_filter.mpr ⟨hname, Option.isSome_of_eq_some hhop⟩, rfl⟩
  · rintro ⟨name, hname, rfl⟩
    obtain ⟨hname, hknown⟩ := List.mem_filter.mp hname
    obtain ⟨hop, hhop⟩ := Option.isSome_iff_exists.mp hknown
    exact ⟨_, mem_counted.mpr ⟨name, hname, hop, hhop, rfl⟩, rfl⟩

/-- The members of a row of a plan as it is given out. -/
def shownRecord (store : Memory) (p : Plan) (columns : List String) (row : Record) : Record :=
  let paths := knownRelations store.model p
  Record.putAll (Record.putAll (Memory.projected columns row)
    (store.loaded (Memory.depth paths) p.entity row paths)) (store.counted p row)

theorem shown_eq (columns : List String) (row : Record) :
    store.shown p columns row = .object (shownRecord store p columns row) := by
  rw [Memory.shown, knownPaths_eq]
  rfl

theorem hasKeys_shownRecord {row : Record} (hrow : HasColumns p.entity row)
    (columns : List String) :
    HasKeys (shownRecord store p columns row) (planOutputs store.model p columns) := by
  intro key
  have hprojection : (projectionNames p.entity columns).map (Output.name ∘ Output.column) =
      projectionNames p.entity columns := List.map_id _
  have hcounts : Output.name ∘ (fun name => Output.subquery (Naming.countKey name) []) =
      Naming.countKey := rfl
  rw [shownRecord, Record.mem_keys_putAll, Record.mem_keys_putAll, mem_keys_projected hrow,
    mem_keys_loaded (allKnown_knownRelations _ p) fun _ => length_le_depth, mem_keys_counted,
    planOutputs, List.map_append, List.map_append, List.map_map, List.map_map, hprojection, hcounts,
    List.mem_append, List.mem_append, map_name_ofTrees, relationForest_eq,
    mem_names_forestOf (allKnown_knownRelations _ p)]

/-- No rows stand under the name of a count. -/
theorem objectsIn_cell_putAll_counted {base row loaded : Record} {name : String}
    (h : loaded ∈ objectsIn (Record.cell (Record.putAll base (store.counted p row)) name)) :
    loaded ∈ objectsIn (Record.cell base name) := by
  rcases Record.cell_putAll base (store.counted p row) name with hbase | hcount
  · rwa [hbase] at h
  · obtain ⟨other, -, hop, -, heq⟩ := mem_counted.mp hcount
    rw [(Prod.mk.inj heq).2] at h
    cases h

/-- The rows of a plan have the keys that the query has outputs. -/
theorem isShaped_shownRecord (hrows : store.Holds store.model HasColumns)
    (hp : p.entity ∈ store.model.entities) (columns : List String) {row : Record}
    (hrow : row ∈ store.rows p.entity.id) :
    IsShaped (knownRelations store.model p) (planOutputs store.model p columns)
      (shownRecord store p columns row) := by
  have hkeys := @hasKeys_shownRecord store p row (hrows p.entity hp row hrow) columns
  refine ⟨hkeys, ?_⟩
  intro path hpath before hbefore loaded hloaded
  cases before with
  | nil =>
      obtain rfl := List.mem_singleton.mp hloaded
      exact ⟨_, rfl, hkeys⟩
  | cons name before =>
      obtain ⟨after, rfl⟩ := hbefore
      have hknown := allKnown_knownRelations store.model p
      obtain ⟨first, hfirst, hnested⟩ := List.mem_flatMap.mp hloaded
      obtain ⟨hop, depth, hhop, hdepth, other, hother, rfl⟩ :=
        of_mem_objectsIn hknown (fun _ => length_le_depth) hpath
          (objectsIn_cell_putAll_counted hfirst)
      rw [subqueryAt?, subquery?_planOutputs hpath hhop]
      refine hasKeys_of_mem_objectsAt hrows (Model.of_hop? hhop).2.2 (hknown.rests hhop) hdepth
        hother ?_ hnested
      exact eq_nil_or_prefix_mem_rests hpath

end Plans

/-- Rows that a store in memory gives have the shape of the query for the same plan and projection:
their keys are the names of its outputs, and the keys of rows that are loaded along a relation are
the names of the outputs of the subquery for it. -/
theorem rows_shaped_as_selected {config : Configuration} {m : Model}
    (hmodel : Model.resolve config = .ok m) (hcolumns : ∀ e ∈ m.entities, e.columns ≠ [])
    {empty : Memory} (hempty : empty.tables = []) (hstore : empty.model = m)
    {operations : List (String × Operation)}
    (hoperations : ∀ timed ∈ operations, timed.2.IsWithin m fun _ => True) {p : Plan}
    (hp : p.entity ∈ m.entities) (columns : List String) (window : Option (Nat × Nat)) :
    (∃ rows, (Storage.get p columns (empty.operateAt operations)).1 = .ok rows ∧
      ∀ value ∈ rows, ∃ row, value = .object row ∧
        IsShaped (knownRelations m p) (selectOutputs (select m p columns window).text) row) ∧
      ∀ perPage page, ∃ result,
        (Storage.paginate p columns perPage page (empty.operateAt operations)).1 = .ok result ∧
        ∀ value ∈ result.rows, ∃ row, value = .object row ∧
          IsShaped (knownRelations m p) (selectOutputs (select m p columns window).text) row := by
  have hrows := hasColumns_operateAt (isResolved_of_resolve hmodel) hcolumns hoperations hempty
  obtain rfl : (empty.operateAt operations).model = m :=
    (operateAt_model operations empty).trans hstore
  generalize empty.operateAt operations = store at hrows hp
  have hshaped {values : List Record} (hvalues : values ⊆ store.selected p) :
      ∀ value ∈ values.map (store.shown p columns), ∃ row, value = .object row ∧
        IsShaped (knownRelations store.model p)
          (selectOutputs (select store.model p columns window).text) row := by
    intro value hvalue
    obtain ⟨row, hrow, rfl⟩ := List.mem_map.mp hvalue
    have hstored : row ∈ store.rows p.entity.id := selection_subset p _ (hvalues hrow)
    refine ⟨shownRecord store p columns row, shown_eq columns row, ?_⟩
    rw [selectOutputs_select]
    exact isShaped_shownRecord hrows hp columns hstored
  constructor
  · exact ⟨_, Memory.get_fst p columns store, hshaped (limited_subset _ _)⟩
  · intro perPage page
    exact ⟨_, Memory.paginate_fst p columns perPage page store,
      hshaped (Page.window_subset _ _ _)⟩

/-! ### A catalogue -/

namespace Catalogue

/-- Writers, whose pen names are not shown with their novels. -/
def writers : EntityDeclaration where
  id := "writers"
  schema := "public"
  table := "writers"
  pathSegment := "writers"
  primaryKey := "id"
  createdAt := "created_at"
  updatedAt := "updated_at"
  columns := [⟨"id", .simple "bigserial", false, none⟩, ⟨"name", .simple "text", true, none⟩,
    ⟨"pen_name", .simple "text", true, none⟩]
  filterableFields := []
  activeFlag := none
  defaultSort := none
  aggregates := ["novels"]
  operations := ["create", "read"]
  sensitiveColumns := ["pen_name"]
  validation := []
  pageSize := 25

/-- Novels, each with one writer. -/
def novels : EntityDeclaration where
  id := "novels"
  schema := "public"
  table := "novels"
  pathSegment := "novels"
  primaryKey := "id"
  createdAt := "created_at"
  updatedAt := "updated_at"
  columns := [⟨"id", .simple "bigserial", false, none⟩, ⟨"title", .simple "text", true, none⟩,
    ⟨"writer_id", .simple "bigint", true, none⟩]
  filterableFields := []
  activeFlag := none
  defaultSort := none
  aggregates := []
  operations := ["create", "read", "update", "delete"]
  sensitiveColumns := []
  validation := []
  pageSize := 25

/-- Writers and novels lead to each other. -/
def config : Configuration where
  entities := [writers, novels]
  relations := [⟨"r1", "novels", "writers", "novels", .toMany, "id", "writer_id"⟩,
    ⟨"r2", "writer", "novels", "writers", .toOne, "writer_id", "id"⟩]

@[inherit_doc writers]
def writer : Entity := Model.entityOf config.relations writers

@[inherit_doc novels]
def novel : Entity := Model.entityOf config.relations novels

/-- The model of writers and novels. -/
def model : Model := ⟨[writer, novel]⟩

/-- A store without rows. -/
def empty : Memory where
  model := model
  clock := ""
  identifiers := fun n => ⟨(Nat.toDigits 16 n).leftpad 32 '0'⟩

/-- A writer and two novels, of which one gets a new title and the other one is removed. -/
def operations : List (String × Operation) :=
  [("2000-01-01T00:00:00+00:00",
      .insert writer [("name", .string "North"), ("pen_name", .string "N. N.")]),
    ("2000-01-02T00:00:00+00:00",
      .insert novel [("title", .string "Lathe"), ("writer_id", .ofInt 1)]),
    ("2000-01-03T00:00:00+00:00", .insert novel [("title", .string "Matter")]),
    ("2000-01-04T00:00:00+00:00",
      .updateByKey novel (.ofInt 1) [("title", .string "Harbour")] true),
    ("2000-01-05T00:00:00+00:00",
      .delete ⟨novel, [.compare "title" .eq (.string "Matter")]⟩)]

/-- The novels with their writers, with the novels of these, and along a relation that there is
not. -/
def withWriters : Plan where
  entity := novel
  calls := [.load "writer.novels", .load "ghost.novels", .load "writer", .count "writer"]

end Catalogue

open Catalogue in
/-- The novel that is left is shaped as the query for novels and their writers says. -/
theorem rows_shaped_as_selected_catalogue :
    ∃ rows, (Storage.get withWriters [] (empty.operateAt operations)).1 = .ok rows ∧
      rows.length = 1 ∧ ∀ value ∈ rows, ∃ row, value = .object row ∧
        IsShaped [["writer", "novels"], ["writer"]]
          (selectOutputs (select model withWriters [] none).text) row := by
  have hmodel : Model.resolve config = .ok model := rfl
  have hcolumns : ∀ e ∈ model.entities, e.columns ≠ [] :=
    List.forall_mem_cons.mpr ⟨List.cons_ne_nil _ _,
      List.forall_mem_singleton.mpr (List.cons_ne_nil _ _)⟩
  have hempty : empty.tables = [] := rfl
  have hwriter : writer ∈ model.entities := List.mem_cons_self
  have hnovel : novel ∈ model.entities := List.mem_cons_of_mem _ List.mem_cons_self
  have hoperations : ∀ timed ∈ operations, timed.2.IsWithin model fun _ => True := by
    unfold operations
    simp only [List.forall_mem_cons]
    exact ⟨⟨hwriter, trivial⟩, ⟨hnovel, trivial⟩, ⟨hnovel, trivial⟩, ⟨hnovel, trivial⟩, trivial,
      nofun⟩
  have hplan : withWriters.entity ∈ model.entities := hnovel
  obtain ⟨⟨rows, hrows, hshaped⟩, -⟩ :=
    rows_shaped_as_selected hmodel hcolumns hempty rfl hoperations hplan [] none
  have hpaths : knownRelations model withWriters = [["writer", "novels"], ["writer"]] := by
    decide +kernel
  have hlength : ((Storage.get withWriters [] (empty.operateAt operations)).1.map
      List.length).toOption = some 1 := by
    decide +kernel
  rw [← hpaths]
  refine ⟨rows, hrows, ?_, hshaped⟩
  rw [hrows] at hlength
  exact Option.some.inj hlength

end EntityService
