import EntityService.Proofs.Bookshop
import EntityService.Proofs.LoadedForest
import EntityService.Proofs.SelectItems
import Mathlib.Data.List.Nodup

/-!
# Aliases of related rows

The query for a plan has one query in its list of columns for each relation that is loaded, and one
for each count.  All are joined with the rows of the query around them, under aliases of their own.

## Main definitions

* `Joined` — queries that are those of the nodes of a forest, each joined with the query around it
* `countTrees` — the relations to count
* `relationAliases`, `countAliases` — consecutive numbers as aliases

## Main results

* `joined_ofTrees`, `joined_countEntries` — the queries for relations and counts, whatever number
  has been used before
* `nodup_aliases` — all aliases of a query are different
* `loaded_relations_are_joined_under_own_aliases` — the forest and the query for any plan

## Design notes

`Joined` says nothing of numbers: it takes the aliases from a list, a node before those below it and
these before the ones that come after it.  That the list is one of consecutive numbers is shown
along the forest, for any number to begin with.
-/

namespace EntityService.Sql

open EntityService.Model EntityService.Number EntityService.Query Statement

/-! ### Joined queries -/

/-- The queries in a list of columns are those of the nodes of a forest, in its order and under
their labels.  Each takes the next alias and is joined with the rows known by the alias of the query
around it; after its condition stands its ending. -/
inductive Joined (label : Relation → String) (ending : Relation → Entity → String → List Token) :
    String → List LoadTree → List String → List Scope → Prop where
  | nil {parent : String} : Joined label ending parent [] [] []
  | cons {parent rowAlias : String} {r : Relation} {target : Entity}
      {children rest : List LoadTree} {below after : List String} {source : List Token}
      {inner others : List Scope}
      (hsource : source = joinTokens r target rowAlias parent ++ ending r target rowAlias)
      (hinner : Joined label ending rowAlias children below inner)
      (hrest : Joined label ending parent rest after others) :
      Joined label ending parent (.node r target children :: rest) (rowAlias :: (below ++ after))
        (.node (label r) source inner :: others)

/-- The relations to count, with nothing to load below them. -/
def countTrees (m : Model) (e : Entity) (names : List String) : List LoadTree :=
  names.filterMap fun name => (m.hop? e name).map fun hop => .node hop.relation hop.target []

/-- The aliases of a number of relations after a number of others. -/
def relationAliases (used count : Nat) : List String :=
  (List.range' (used + 1) count).map relationAlias

/-- The aliases of a number of counts after a number of relations. -/
def countAliases (used count : Nat) : List String :=
  (List.range' (used + 1) count).map countAlias

/-! ### The queries of relations -/

/-- The aliases of a node, of the nodes below it and of those after it. -/
theorem relationAliases_node (used below after : Nat) :
    relationAliases used (1 + below + after) =
      relationAlias (used + 1) ::
        (relationAliases (used + 1) below ++ relationAliases (used + 1 + below) after) := by
  have hrange : List.range' (used + 1) (1 + below + after) =
      (used + 1) :: (List.range' (used + 2) below ++ List.range' (used + 2 + below) after) := by
    rw [List.range'_append_1, Nat.add_assoc, Nat.add_comm 1, List.range'_succ]
  have hnext : used + 1 + below + 1 = used + 2 + below := by omega
  rw [relationAliases, hrange, List.map_cons, List.map_append, relationAliases, relationAliases,
    hnext]

theorem length_namePaths_cons (r : Relation) (target : Entity) (children rest : List LoadTree) :
    (namePaths (.node r target children :: rest)).length =
      1 + (namePaths children).length + (namePaths rest).length := by
  simp only [namePaths, List.length_append, List.length_cons, List.length_map]
  omega

mutual
/-- The number used last is that of the last node. -/
theorem snd_subquery (parent : String) (used : Nat) (r : Relation) (target : Entity)
    (children : List LoadTree) :
    (subquery parent used (.node r target children)).2 =
      used + 1 + (namePaths children).length := by
  rw [subquery]
  exact snd_subqueries _ (used + 1) children

@[inherit_doc snd_subquery]
theorem snd_subqueries (parent : String) (used : Nat) (forest : List LoadTree) :
    (subqueries parent used forest).2 = used + (namePaths forest).length := by
  match forest with
  | [] =>
      rw [subqueries, namePaths]
      rfl
  | .node r target children :: rest =>
      rw [subqueries, length_namePaths_cons]
      change (subqueries parent (subquery parent used (.node r target children)).2 rest).2 = _
      rw [snd_subqueries parent _ rest, snd_subquery parent used r target children]
      omega
end

/-- Columns are no queries. -/
theorem scopes_map_kept {α : Type} (name : α → String) (xs : List α) :
    Scope.view.ofEntries (xs.map fun x => .kept (name x)) = [] := by
  refine View.ofEntries_eq_nil _ (List.forall_mem_map.mpr fun x _ => ?_)
  rw [Entry.kept, View.ofEntry]
  rfl

/-- A star is no query. -/
theorem scopes_star : Scope.view.ofEntries [.star] = [] := by
  rw [View.ofEntries_singleton, View.ofEntry]
  rfl

theorem scopes_relatedEntries (target : Entity) :
    Scope.view.ofEntries (relatedEntries target) = [] := by
  unfold relatedEntries
  split
  · exact scopes_star
  · exact scopes_map_kept Column.name _

theorem scopes_projectionEntries (e : Entity) (columns : List String) :
    Scope.view.ofEntries (projectionEntries e columns) = [] := by
  unfold projectionEntries
  split
  · split
    · exact scopes_star
    · exact scopes_map_kept Column.name _
  · exact scopes_map_kept id columns

/-- The queries for the nodes of a forest are joined with the rows around them, under the aliases
that come next. -/
theorem joined_ofTrees (parent : String) (used : Nat) (forest : List LoadTree) :
    Joined Relation.name endTokens parent forest
      (relationAliases used (namePaths forest).length)
      (Scope.view.ofEntries (Entry.ofTrees parent used forest)) := by
  match forest with
  | [] =>
      rw [Entry.ofTrees, View.ofEntries, namePaths]
      exact .nil
  | .node r target children :: rest =>
      have hbelow := joined_ofTrees (relationAlias (used + 1)) (used + 1) children
      have hafter := joined_ofTrees parent (used + 1 + (namePaths children).length) rest
      rw [length_namePaths_cons, relationAliases_node, Entry.ofTrees, Entry.ofTree, snd_subquery,
        View.ofEntries, View.ofEntry, View.ofEntries_append, scopes_relatedEntries]
      exact .cons rfl hbelow hafter

/-! ### The queries of counts -/

theorem countAliases_succ (used count : Nat) :
    countAliases used (count + 1) = countAlias (used + 1) :: countAliases (used + 1) count := by
  rw [countAliases, List.range'_succ]
  rfl

/-- The queries for counts are joined with the rows of the outermost query, under the aliases that
come next. -/
theorem joined_countEntries (m : Model) (e : Entity) (used : Nat) (names : List String) :
    Joined (fun r => Naming.countKey r.name) (fun _ _ _ => []) mainAlias (countTrees m e names)
      (countAliases used (countTrees m e names).length)
      (Scope.view.ofEntries (countEntries m e used names)) := by
  induction names generalizing used with
  | nil =>
      rw [countEntries, View.ofEntries]
      exact .nil
  | cons name rest ih =>
      unfold countEntries
      cases hhop : m.hop? e name with
      | none =>
          have htrees : countTrees m e (name :: rest) = countTrees m e rest := by
            simp [countTrees, hhop]
          rw [htrees]
          exact ih used
      | some hop =>
          have htrees : countTrees m e (name :: rest) =
              .node hop.relation hop.target [] :: countTrees m e rest := by
            simp [countTrees, hhop]
          obtain rfl := (Model.of_hop? hhop).1
          dsimp only
          rw [htrees, List.length_cons, countAliases_succ, View.ofEntries, View.ofEntry,
            View.ofEntries]
          exact .cons (List.append_nil _).symm .nil (ih (used + 1))

/-! ### Distinct aliases -/

/-- Numbers under one letter are different aliases. -/
theorem nodup_numbered (letter : String) (start count : Nat) :
    ((List.range' start count).map fun number => letter ++ toString number).Nodup := by
  refine List.Nodup.map (fun a b h => ?_) List.nodup_range'
  have htexts := congrArg String.toList h
  rw [String.toList_append, String.toList_append] at htexts
  exact toString_injective (String.toList_injective (List.append_cancel_left htexts))

/-- The aliases of a query are different from each other and from that of its own rows. -/
theorem nodup_aliases (loads counts : Nat) :
    (relationAliases 0 loads ++ countAliases loads counts).Nodup ∧
      mainAlias ∉ relationAliases 0 loads ++ countAliases loads counts := by
  have hfirst (letter text : String) (c : Char) (h : letter.toList = [c]) :
      (letter ++ text).toList.head? = some c := by
    rw [String.toList_append, h]
    rfl
  have hloads : ∀ a ∈ relationAliases 0 loads, a.toList.head? = some 'r' :=
    List.forall_mem_map.mpr fun n _ => hfirst "r" (toString n) 'r' rfl
  have hcounts : ∀ a ∈ countAliases loads counts, a.toList.head? = some 'c' :=
    List.forall_mem_map.mpr fun n _ => hfirst "c" (toString n) 'c' rfl
  constructor
  · refine List.nodup_append.mpr ⟨nodup_numbered "r" _ _, nodup_numbered "c" _ _, ?_⟩
    rintro a ha b hb rfl
    exact absurd ((hloads a ha).symm.trans (hcounts a hb)) (by decide)
  · rw [List.mem_append, not_or]
    constructor
    · exact fun hmem => absurd (hloads _ hmem) (by decide)
    · exact fun hmem => absurd (hcounts _ hmem) (by decide)

/-! ### The query for a plan -/

/-- The queries in the list of columns for a plan are those for its relations and its counts. -/
theorem inner_readQuery_select (m : Model) (p : Plan) (columns : List String)
    (window : Option (Nat × Nat)) :
    (readQuery (select m p columns window).text).inner =
      Scope.view.ofEntries
          (Entry.ofTrees mainAlias 0 (relationForest m p.entity p.calls.relations)) ++
        Scope.view.ofEntries (countEntries m p.entity
          (namePaths (relationForest m p.entity p.calls.relations)).length p.calls.counts) := by
  rw [inner_readQuery, (readSelect_select m p columns window).1, planEntries, View.ofEntries_append,
    View.ofEntries_append, scopes_projectionEntries, snd_subqueries, Nat.zero_add,
    List.nil_append]

/-- The relations to load for any paths are a forest that follows them.  In the query for any plan
they are numbered in the order of the forest and the counts after them, all under different aliases
that are not that of the plan's own rows; each is joined with the rows of the query that it stands
in, by its own foreign key and the local key of these rows. -/
theorem loaded_relations_are_joined_under_own_aliases (m : Model) :
    (∀ (e : Entity) (paths : List String), FollowsPaths m e paths (relationForest m e paths)) ∧
      ∀ (p : Plan) (columns : List String) (window : Option (Nat × Nat)),
        let forest := relationForest m p.entity p.calls.relations
        let trees := countTrees m p.entity p.calls.counts
        let loaded := relationAliases 0 (namePaths forest).length
        let counted := countAliases (namePaths forest).length trees.length
        let query := readQuery (select m p columns window).text
        tableTokens p.entity ++ chars (" " ++ mainAlias) <+: query.source ∧
          (∃ loads counts, query.inner = loads ++ counts ∧
            Joined Relation.name endTokens mainAlias forest loaded loads ∧
            Joined (fun r => Naming.countKey r.name) (fun _ _ _ => []) mainAlias trees counted
              counts) ∧
          (loaded ++ counted).Nodup ∧ mainAlias ∉ loaded ++ counted := by
  refine ⟨followsPaths_relationForest m, fun p columns window => ?_⟩
  intro forest trees loaded counted query
  have hsource := (readSelect_select m p columns window).2
  rw [← source_readQuery] at hsource
  have hinner := inner_readQuery_select m p columns window
  have hloads := joined_ofTrees mainAlias 0 forest
  have hcounts := joined_countEntries m p.entity (namePaths forest).length p.calls.counts
  exact ⟨hsource, ⟨_, _, hinner, hloads, hcounts⟩, nodup_aliases _ _⟩

example : (select Bookshop.model ⟨Bookshop.authors, [.load "books.author", .count "books"]⟩
    [] none).text =
    "SELECT main.*, (SELECT COALESCE(json_agg(row_to_json(sub)), '[]'::json) FROM " ++
    "(SELECT r1.*, (SELECT row_to_json(sub) FROM (SELECT r2.* FROM \"public\".\"authors\" r2 " ++
    "WHERE r2.\"id\" = r1.\"author_id\" LIMIT 1) sub) AS \"author\" FROM " ++
    "\"public\".\"books\" r1 WHERE r1.\"author_id\" = main.\"id\" ORDER BY r1.\"id\") sub) AS " ++
    "\"books\", (SELECT COUNT(*) FROM \"public\".\"books\" c3 WHERE c3.\"author_id\" = " ++
    "main.\"id\") AS \"books_count\" FROM \"public\".\"authors\" main ORDER BY main.\"id\"" := by
  decide +kernel

end EntityService.Sql
