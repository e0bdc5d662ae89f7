import EntityService.Proofs.Inclusions
import EntityService.Proofs.RelationPaths

/-!
# The forest of a list of paths

The relations to load form a forest.  Its nodes are the beginnings of the known paths, whatever
order the paths come in, and the nodes below one node stand in the order in which they are first
mentioned.

## Main definitions

* `namePaths` — the names from the roots of a forest down to each node
* `levelAt` — the trees at the end of a path of names
* `segmentAfter` — the segment of a path that comes after a beginning of it
* `FollowsPaths` — the nodes and the levels of a forest are those of the known paths

## Main results

* `map_name_forestOf` — the roots are the first segments in the order of their first mentions
* `mem_namePaths_forestOf`, `isFirstMentions_levelAt` — the nodes and levels of a forest
* `followsPaths_relationForest` — the forest of any list of paths follows them

## Design notes

What stands below a node is the forest of what is left of the paths that lead there, so each fact is
shown by going along a path.  Only that on the roots takes the paths one after the other.
-/

namespace EntityService.Sql

open EntityService.Model EntityService.Query EntityService.Text

/-! ### Nodes and levels -/

/-- The names from the roots of a forest down to each node, a node before those below it. -/
def namePaths : List LoadTree → List (List String)
  | [] => []
  | .node r _ children :: rest =>
    [r.name] :: (namePaths children).map (r.name :: ·) ++ namePaths rest

/-- The trees at the end of a path of names. -/
def levelAt (forest : List LoadTree) : List String → List LoadTree
  | [] => forest
  | name :: rest =>
    match forest.find? fun tree => tree.name == name with
    | some tree => levelAt tree.children rest
    | none => []

/-- The segment of a path that comes after a beginning of it. -/
def segmentAfter (start path : List String) : Option String :=
  if start <+: path then path[start.length]? else none

theorem mem_namePaths {path : List String} {forest : List LoadTree} :
    path ∈ namePaths forest ↔
      ∃ tree ∈ forest, ∃ rest, path = tree.name :: rest ∧
        (rest = [] ∨ rest ∈ namePaths tree.children) := by
  induction forest with
  | nil => simp [namePaths]
  | cons first forest ih =>
      obtain ⟨r, target, children⟩ := first
      have hhead : (path = [r.name] ∨ ∃ rest ∈ namePaths children, r.name :: rest = path) ↔
          ∃ rest, path = r.name :: rest ∧ (rest = [] ∨ rest ∈ namePaths children) := by
        constructor
        · rintro (rfl | ⟨rest, hrest, rfl⟩)
          · exact ⟨[], rfl, .inl rfl⟩
          · exact ⟨rest, rfl, .inr hrest⟩
        · rintro ⟨rest, rfl, rfl | hrest⟩
          · exact .inl rfl
          · exact .inr ⟨rest, hrest, rfl⟩
      rw [namePaths, List.cons_append, List.mem_cons, List.mem_append, ih, List.mem_map,
        ← or_assoc, hhead]
      simp only [List.mem_cons, exists_eq_or_imp]
      rfl

theorem segmentAfter_cons (name first : String) (start path : List String) :
    segmentAfter (name :: start) (first :: path) =
      if first = name then segmentAfter start path else none := by
  unfold segmentAfter
  by_cases hname : first = name
  · simp [hname]
  · simp [hname, Ne.symm hname]

/-- What comes after a name and a path in paths is what comes after the path in the rests. -/
theorem filterMap_segmentAfter_cons (name : String) (start : List String)
    (paths : List (List String)) :
    paths.filterMap (segmentAfter (name :: start)) =
      (rests name paths).filterMap (segmentAfter start) := by
  unfold rests
  rw [List.filterMap_filterMap]
  refine List.filterMap_congr fun path _ => ?_
  cases path with
  | nil => rfl
  | cons first rest =>
      rw [segmentAfter_cons]
      by_cases hname : first = name
      · cases rest with
        | nil => cases start <;> simp [segmentAfter, hname]
        | cons next rest => simp [hname]
      · simp [hname]

/-! ### The roots -/

/-- One mention more of a name. -/
theorem eraseDups_concat (names : List String) (name : String) :
    (names ++ [name]).eraseDups =
      if name ∈ names then names.eraseDups else names.eraseDups ++ [name] := by
  rw [List.eraseDups_append]
  split
  · next h => simp [List.removeAll, h]
  · next h => simp [List.removeAll, h, List.eraseDups_cons]

/-- A change keeps the roots, and adds one when none has the name of the step. -/
theorem map_name_graft (hop : Hop) (change : List LoadTree → List LoadTree)
    (forest : List LoadTree) :
    (graft hop change forest).map LoadTree.name =
      if hop.relation.name ∈ forest.map LoadTree.name then forest.map LoadTree.name
      else forest.map LoadTree.name ++ [hop.relation.name] := by
  induction forest with
  | nil => rfl
  | cons first rest ih =>
      obtain ⟨r, target, children⟩ := first
      unfold graft
      split
      · next hname => simp [LoadTree.name, LoadTree.relation, hname]
      · next hname =>
          have hne : hop.relation.name ≠ (LoadTree.node r target children).name := Ne.symm hname
          simp only [List.map_cons, ih, List.mem_cons, hne, false_or]
          split <;> rfl

/-- The roots of a forest are the first segments of its paths, in the order of their first
mentions. -/
theorem map_name_forestOf {m : Model} {e : Entity} {paths : List (List String)}
    (h : AllKnown m e paths) :
    (forestOf m e paths).map LoadTree.name = (paths.filterMap List.head?).eraseDups := by
  induction paths using List.reverseRecOn with
  | nil => rfl
  | append_singleton paths path ih =>
      obtain ⟨hpaths, hpath⟩ := List.forall_mem_append.mp h
      obtain ⟨hops, hhops⟩ := Option.isSome_iff_exists.mp (hpath path List.mem_cons_self)
      rw [forestOf_append hhops, List.filterMap_append]
      cases path with
      | nil =>
          obtain rfl : [] = hops := Option.some.inj hhops
          exact (ih hpaths).trans (congrArg List.eraseDups (List.append_nil _).symm)
      | cons name rest =>
          rw [Model.chain?_cons, Option.bind_eq_some_iff] at hhops
          obtain ⟨hop, hhop, hrest⟩ := hhops
          obtain ⟨others, -, rfl⟩ := Option.map_eq_some_iff.mp hrest
          obtain rfl := (Model.of_hop? hhop).1
          rw [insertChain, map_name_graft, ih hpaths]
          simp only [List.mem_eraseDups]
          exact (eraseDups_concat _ _).symm

/-! ### Along a path -/

section Along

variable {m : Model} {e : Entity} {paths : List (List String)} (h : AllKnown m e paths)

include h

/-- The trees below a name are the forest of the rests under the name. -/
theorem levelAt_cons (name : String) (path : List String) :
    (∃ hop, m.hop? e name = some hop ∧
        levelAt (forestOf m e paths) (name :: path) =
          levelAt (forestOf m hop.target (rests name paths)) path) ∨
      (levelAt (forestOf m e paths) (name :: path) = [] ∧ rests name paths = []) := by
  have hforest := isForest_forestOf h
  rw [levelAt]
  split
  · next tree hfind =>
      have htree := List.mem_of_find?_eq_some hfind
      have hname := List.find?_some hfind
      obtain rfl : tree.name = name := beq_iff_eq.mp hname
      exact .inl ⟨_, hforest.hop tree htree, by rw [hforest.children tree htree]⟩
  · next hfind =>
      refine .inr ⟨rfl, List.eq_nil_iff_forall_not_mem.mpr fun rest hrest => ?_⟩
      obtain ⟨tree, htree, hname⟩ := hforest.complete name rest (mem_rests.mp hrest).1
      exact List.find?_eq_none.mp hfind tree htree (beq_iff_eq.mpr hname)

/-- The names at the end of a path are those mentioned after it. -/
theorem isFirstMentions_levelAt (path : List String) :
    IsFirstMentions ((levelAt (forestOf m e paths) path).map LoadTree.name)
      (paths.filterMap (segmentAfter path)) := by
  induction path generalizing e paths with
  | nil =>
      have hafter : segmentAfter [] = List.head? := by
        funext path
        simp [segmentAfter, List.head?_eq_getElem?]
      rw [levelAt, map_name_forestOf h, hafter]
      exact isFirstMentions_eraseDups _
  | cons name path ih =>
      rw [filterMap_segmentAfter_cons]
      rcases levelAt_cons h name path with ⟨hop, hhop, hlevel⟩ | ⟨hlevel, hrests⟩
      · rw [hlevel]
        exact ih (h.rests hhop)
      · rw [hlevel, hrests]
        exact isFirstMentions_eraseDups []

/-- The nodes of a forest are the beginnings of its paths. -/
theorem mem_namePaths_forestOf (path : List String) :
    path ∈ namePaths (forestOf m e paths) ↔ path ≠ [] ∧ ∃ known ∈ paths, path <+: known := by
  induction path generalizing e paths with
  | nil =>
      rw [mem_namePaths]
      simp
  | cons name path ih =>
      have hforest := isForest_forestOf h
      -- what stands below a tree are the beginnings of the rests
      have hbelow (tree : LoadTree) (htree : tree ∈ forestOf m e paths) :
          path ∈ namePaths tree.children ↔
            path ≠ [] ∧ ∃ known ∈ rests tree.name paths, path <+: known := by
        rw [hforest.children tree htree]
        exact ih (h.rests (hforest.hop tree htree))
      rw [mem_namePaths]
      constructor
      · rintro ⟨tree, htree, rest, heq, hrest⟩
        obtain ⟨rfl, rfl⟩ := List.cons.inj heq
        refine ⟨List.cons_ne_nil _ _, ?_⟩
        rcases hrest with rfl | hrest
        · obtain ⟨rest, hpath⟩ := hforest.first tree htree
          exact ⟨_, hpath, rest, rfl⟩
        · obtain ⟨-, known, hknown, hstart⟩ := (hbelow tree htree).mp hrest
          exact ⟨_, (mem_rests.mp hknown).1, List.cons_prefix_cons.mpr ⟨rfl, hstart⟩⟩
      · rintro ⟨-, known, hknown, hstart⟩
        obtain ⟨rest, rfl⟩ := hstart
        obtain ⟨tree, htree, rfl⟩ := hforest.complete name (path ++ rest) hknown
        refine ⟨tree, htree, path, rfl, ?_⟩
        by_cases hend : path = []
        · exact .inl hend
        · have hne : path ++ rest ≠ [] := fun hnil => hend (List.append_eq_nil_iff.mp hnil).1
          exact .inr ((hbelow tree htree).mpr
            ⟨hend, _, mem_rests.mpr ⟨hknown, hne⟩, rest, rfl⟩)

/-- A tree is that of the last step of the path to it. -/
theorem exists_chain?_of_mem_levelAt {path : List String} {tree : LoadTree}
    (htree : tree ∈ levelAt (forestOf m e paths) path) :
    ∃ before, m.chain? e (path ++ [tree.name]) =
      some (before ++ [⟨tree.relation, tree.target⟩]) := by
  induction path generalizing e paths with
  | nil =>
      refine ⟨[], ?_⟩
      rw [List.nil_append, Model.chain?_cons, (isForest_forestOf h).hop tree htree]
      rfl
  | cons name path ih =>
      rcases levelAt_cons h name path with ⟨hop, hhop, hlevel⟩ | ⟨hlevel, -⟩
      · rw [hlevel] at htree
        obtain ⟨before, hbefore⟩ := ih (h.rests hhop) htree
        refine ⟨hop :: before, ?_⟩
        rw [List.cons_append, Model.chain?_cons, hhop, Option.bind_some, hbefore]
        rfl
      · rw [hlevel] at htree
        cases htree

end Along

/-! ### Any list of paths -/

/-- A forest follows dotted paths: its nodes are the beginnings of the known ones, the nodes at the
end of each path are the names mentioned after it, each once and in the order of their first
mentions, and each node is that of the last step of the path to it. -/
structure FollowsPaths (m : Model) (e : Entity) (paths : List String) (forest : List LoadTree) :
    Prop where
  nodes : ∀ path, path ∈ namePaths forest ↔
    path ≠ [] ∧ ∃ dotted ∈ paths, (m.pathChain? e dotted).isSome ∧ path <+: pieces '.' dotted
  levels : ∀ path, IsFirstMentions ((levelAt forest path).map LoadTree.name)
    ((m.knownPaths e paths).filterMap (segmentAfter path))
  steps : ∀ path, ∀ tree ∈ levelAt forest path, ∃ before,
    m.chain? e (path ++ [tree.name]) = some (before ++ [⟨tree.relation, tree.target⟩])

/-- The forest of any list of paths follows them. -/
theorem followsPaths_relationForest (m : Model) (e : Entity) (paths : List String) :
    FollowsPaths m e paths (relationForest m e paths) := by
  have hknown := allKnown_knownPaths m e paths
  rw [relationForest_eq_forestOf]
  refine ⟨fun path => ?_, isFirstMentions_levelAt hknown, fun _ _ =>
    exists_chain?_of_mem_levelAt hknown⟩
  rw [mem_namePaths_forestOf hknown]
  simp [Model.knownPaths, Model.pathChain?, and_assoc]

end EntityService.Sql
