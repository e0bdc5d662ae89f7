import EntityService.Sql.Relation
import EntityService.Store.Related
import Mathlib.Data.List.Induction

/-!
# Paths of relations

The relations that a query loads, once as a forest of subqueries and once level by level: both go by
the first segments of the paths and by what is left of them.

## Main definitions

* `rests` — what is left of the paths that begin with a name
* `Model.knownPaths` — the known ones among dotted paths, by their segments
* `forestOf` — the forest of paths given by their segments
* `IsForest` — a forest has one tree for each first segment, with the forest of the rests below

## Main results

* `isForest_forestOf` — the forest of known paths is one
* `mem_pathHeads`, `exists_mem_pathHeads` — the levels have the same first segments and rests

## Design notes

A forest grows by one path after the other, so its invariant is shown from the last path backwards.
The relations of a model may form circles: the proofs go along the paths, never along the model.
-/

namespace EntityService

open EntityService.Model EntityService.Sql EntityService.Store EntityService.Text

/-- What is left of the paths that begin with a name, without those that end there. -/
def rests (name : String) (paths : List (List String)) : List (List String) :=
  paths.filterMap fun
    | [] => none
    | first :: rest => if first = name ∧ rest ≠ [] then some rest else none

theorem mem_rests {name : String} {paths : List (List String)} {rest : List String} :
    rest ∈ rests name paths ↔ name :: rest ∈ paths ∧ rest ≠ [] := by
  unfold rests
  rw [List.mem_filterMap]
  constructor
  · rintro ⟨path, hpath, hrest⟩
    cases path with
    | nil => cases hrest
    | cons first others =>
        dsimp only at hrest
        split at hrest
        · next h =>
            obtain rfl := Option.some.inj hrest
            exact ⟨h.1 ▸ hpath, h.2⟩
        · cases hrest
  · rintro ⟨hpath, hne⟩
    exact ⟨name :: rest, hpath, if_pos ⟨rfl, hne⟩⟩

theorem rests_append (name : String) (paths others : List (List String)) :
    rests name (paths ++ others) = rests name paths ++ rests name others :=
  List.filterMap_append

/-- The paths all lead from an entity to entities of the model. -/
def AllKnown (m : Model) (e : Entity) (paths : List (List String)) : Prop :=
  ∀ path ∈ paths, (m.chain? e path).isSome

theorem AllKnown.rests {m : Model} {e : Entity} {paths : List (List String)}
    (h : AllKnown m e paths) {name : String} {hop : Hop} (hhop : m.hop? e name = some hop) :
    AllKnown m hop.target (rests name paths) := by
  intro rest hrest
  have hknown := h _ (mem_rests.mp hrest).1
  rw [Model.chain?_cons, hhop, Option.bind_some, Option.isSome_map] at hknown
  exact hknown

/-- The known ones among dotted paths, by their segments. -/
def Model.knownPaths (m : Model) (e : Entity) (paths : List String) : List (List String) :=
  (paths.map (pieces '.')).filter fun path => (m.chain? e path).isSome

theorem allKnown_knownPaths (m : Model) (e : Entity) (paths : List String) :
    AllKnown m e (m.knownPaths e paths) :=
  fun _ hpath => (List.mem_filter.mp hpath).2

/-! ### The forest of paths -/

namespace Sql

/-- The name of the relation of a tree. -/
abbrev LoadTree.name (tree : LoadTree) : String := tree.relation.name

/-- The forest of paths that are given by their segments. -/
def forestOf (m : Model) (e : Entity) (paths : List (List String)) : List LoadTree :=
  (paths.filterMap (m.chain? e)).foldl (fun forest hops => insertChain hops forest) []

theorem forestOf_append {m : Model} {e : Entity} {path : List String} {hops : List Hop}
    (h : m.chain? e path = some hops) (paths : List (List String)) :
    forestOf m e (paths ++ [path]) = insertChain hops (forestOf m e paths) := by
  have hchains : [path].filterMap (m.chain? e) = [hops] := by simp [h]
  rw [forestOf, List.filterMap_append, hchains, List.foldl_append]
  rfl

/-- The forest of dotted paths is that of the known ones. -/
theorem relationForest_eq_forestOf (m : Model) (e : Entity) (paths : List String) :
    relationForest m e paths = forestOf m e (m.knownPaths e paths) := by
  have hchains (paths : List (List String)) :
      (paths.filter fun path => (m.chain? e path).isSome).filterMap (m.chain? e) =
        paths.filterMap (m.chain? e) := by
    induction paths with
    | nil => rfl
    | cons path rest ih =>
        rw [List.filter_cons, List.filterMap_cons]
        cases hpath : m.chain? e path with
        | none => exact ih
        | some hops => exact (List.filterMap_cons_some hpath).trans (congrArg (hops :: ·) ih)
  unfold relationForest forestOf Model.knownPaths
  rw [hchains, List.filterMap_map]
  rfl

/-- One tree for each first segment of paths, with the forest of the rests below it. -/
structure IsForest (m : Model) (e : Entity) (paths : List (List String)) (forest : List LoadTree) :
    Prop where
  distinct : forest.Pairwise fun a b => a.name ≠ b.name
  hop : ∀ tree ∈ forest, m.hop? e tree.name = some ⟨tree.relation, tree.target⟩
  children : ∀ tree ∈ forest, tree.children = forestOf m tree.target (rests tree.name paths)
  first : ∀ tree ∈ forest, ∃ rest, tree.name :: rest ∈ paths
  complete : ∀ name rest, name :: rest ∈ paths → ∃ tree ∈ forest, tree.name = name

/-- The trees of a forest after a change: the others, the changed one, or a new one. -/
theorem mem_graft {hop : Hop} {change : List LoadTree → List LoadTree} {forest : List LoadTree}
    (hdistinct : forest.Pairwise fun a b => a.name ≠ b.name) {tree : LoadTree}
    (h : tree ∈ graft hop change forest) :
    (tree ∈ forest ∧ tree.name ≠ hop.relation.name) ∨
      (∃ old ∈ forest, old.name = hop.relation.name ∧
        tree = .node old.relation old.target (change old.children)) ∨
      ((∀ old ∈ forest, old.name ≠ hop.relation.name) ∧
        tree = .node hop.relation hop.target (change [])) := by
  induction forest with
  | nil => exact .inr (.inr ⟨nofun, List.mem_singleton.mp h⟩)
  | cons first rest ih =>
      obtain ⟨hfirst, hrest⟩ := List.pairwise_cons.mp hdistinct
      obtain ⟨r, t, cs⟩ := first
      unfold graft at h
      split at h
      · next hname =>
          rcases List.mem_cons.mp h with rfl | hmem
          · exact .inr (.inl ⟨.node r t cs, List.mem_cons_self, hname, rfl⟩)
          · refine .inl ⟨List.mem_cons_of_mem _ hmem, ?_⟩
            intro heq
            exact hfirst tree hmem (hname.trans heq.symm)
      · next hname =>
          rcases List.mem_cons.mp h with rfl | hmem
          · exact .inl ⟨List.mem_cons_self, hname⟩
          · rcases ih hrest hmem with ⟨hold, hne⟩ | ⟨old, hold, heq, htree⟩ | ⟨hnone, htree⟩
            · exact .inl ⟨List.mem_cons_of_mem _ hold, hne⟩
            · exact .inr (.inl ⟨old, List.mem_cons_of_mem _ hold, heq, htree⟩)
            · exact .inr (.inr ⟨List.forall_mem_cons.mpr ⟨hname, hnone⟩, htree⟩)

/-- A change keeps the names apart. -/
theorem pairwise_graft {hop : Hop} {change : List LoadTree → List LoadTree}
    {forest : List LoadTree} (h : forest.Pairwise fun a b => a.name ≠ b.name) :
    (graft hop change forest).Pairwise fun a b => a.name ≠ b.name := by
  induction forest with
  | nil => exact List.pairwise_singleton _ _
  | cons first rest ih =>
      obtain ⟨hfirst, hrest⟩ := List.pairwise_cons.mp h
      obtain ⟨r, t, cs⟩ := first
      unfold graft
      split
      · exact List.pairwise_cons.mpr ⟨hfirst, hrest⟩
      · next hname =>
          refine List.pairwise_cons.mpr ⟨fun tree htree => ?_, ih hrest⟩
          rcases mem_graft hrest htree with ⟨hold, -⟩ | ⟨old, -, heq, rfl⟩ | ⟨-, rfl⟩
          · exact hfirst tree hold
          · exact fun hsame => hname (hsame.trans heq)
          · exact hname

/-- A change leaves a tree under each name, and one under the name of the step. -/
theorem exists_mem_graft {hop : Hop} {change : List LoadTree → List LoadTree}
    {forest : List LoadTree} {name : String}
    (h : name = hop.relation.name ∨ ∃ tree ∈ forest, tree.name = name) :
    ∃ tree ∈ graft hop change forest, tree.name = name := by
  induction forest with
  | nil =>
      rcases h with rfl | ⟨tree, htree, -⟩
      · exact ⟨_, List.mem_cons_self, rfl⟩
      · cases htree
  | cons first rest ih =>
      obtain ⟨r, t, cs⟩ := first
      unfold graft
      split
      · next hname =>
          rcases h with rfl | ⟨tree, htree, rfl⟩
          · exact ⟨_, List.mem_cons_self, hname⟩
          · rcases List.mem_cons.mp htree with rfl | hrest
            · exact ⟨_, List.mem_cons_self, rfl⟩
            · exact ⟨tree, List.mem_cons_of_mem _ hrest, rfl⟩
      · have hlater (h : name = hop.relation.name ∨ ∃ tree ∈ rest, tree.name = name) :
            ∃ tree ∈ .node r t cs :: graft hop change rest, tree.name = name := by
          obtain ⟨tree, htree, hname⟩ := ih h
          exact ⟨tree, List.mem_cons_of_mem _ htree, hname⟩
        rcases h with hname | ⟨tree, htree, hname⟩
        · exact hlater (.inl hname)
        · rcases List.mem_cons.mp htree with rfl | hrest
          · exact ⟨_, List.mem_cons_self, hname⟩
          · exact hlater (.inr ⟨tree, hrest, hname⟩)

/-- One path more: the rests under its first segment grow by what is left of it. -/
theorem forestOf_rests_append {m : Model} {target : Entity} {rest : List String} {hops : List Hop}
    (h : m.chain? target rest = some hops) (name : String) (paths : List (List String)) :
    forestOf m target (rests name (paths ++ [name :: rest])) =
      insertChain hops (forestOf m target (rests name paths)) := by
  rw [rests_append]
  cases rest with
  | nil =>
      obtain rfl : [] = hops := Option.some.inj h
      have hnone : rests name [[name]] = [] := by simp [rests]
      rw [hnone, List.append_nil]
      rfl
  | cons first others =>
      have hone : rests name [name :: first :: others] = [first :: others] := by simp [rests]
      rw [hone, forestOf_append h]

/-- One path more leaves the rests under other names. -/
theorem rests_append_of_ne {name first : String} (h : first ≠ name) (rest : List String)
    (paths : List (List String)) : rests name (paths ++ [first :: rest]) = rests name paths := by
  have hnone : rests name [first :: rest] = [] := by simp [rests, h]
  rw [rests_append, hnone, List.append_nil]

/-- The empty path adds nothing. -/
theorem IsForest.append_nil {m : Model} {e : Entity} {paths : List (List String)}
    {forest : List LoadTree} (h : IsForest m e paths forest) :
    IsForest m e (paths ++ [[]]) forest := by
  have hrests (name : String) : rests name (paths ++ [[]]) = rests name paths := by
    rw [rests_append]
    exact List.append_nil _
  exact {
    distinct := h.distinct
    hop := h.hop
    children := by
      intro tree htree
      rw [hrests]
      exact h.children tree htree
    first := by
      intro tree htree
      obtain ⟨rest, hrest⟩ := h.first tree htree
      exact ⟨rest, List.mem_append_left _ hrest⟩
    complete := by
      intro name rest hpath
      rcases List.mem_append.mp hpath with hold | hnil
      · exact h.complete name rest hold
      · cases List.mem_singleton.mp hnil }

/-- A path more is grafted into the forest. -/
theorem IsForest.graft {m : Model} {e : Entity} {paths : List (List String)}
    {forest : List LoadTree} (h : IsForest m e paths forest) {name : String} {rest : List String}
    {hop : Hop} {hops : List Hop} (hhop : m.hop? e name = some hop)
    (hhops : m.chain? hop.target rest = some hops) :
    IsForest m e (paths ++ [name :: rest]) (graft hop (insertChain hops) forest) := by
  obtain rfl := (Model.of_hop? hhop).1
  have hmem (tree : LoadTree) (htree : tree ∈ Sql.graft hop (insertChain hops) forest) :
      m.hop? e tree.name = some ⟨tree.relation, tree.target⟩ ∧
        tree.children = forestOf m tree.target
          (rests tree.name (paths ++ [hop.relation.name :: rest])) ∧
        ∃ rest', tree.name :: rest' ∈ paths ++ [hop.relation.name :: rest] := by
    rcases mem_graft h.distinct htree with ⟨hold, hne⟩ | ⟨old, hold, heq, rfl⟩ | ⟨hnone, rfl⟩
    · obtain ⟨rest', hrest'⟩ := h.first tree hold
      refine ⟨h.hop tree hold, ?_, rest', List.mem_append_left _ hrest'⟩
      rw [rests_append_of_ne (Ne.symm hne)]
      exact h.children tree hold
    · have hsame : ⟨old.relation, old.target⟩ = hop := by
        have hhop' := h.hop old hold
        rw [heq, hhop] at hhop'
        exact (Option.some.inj hhop').symm
      subst hsame
      refine ⟨hhop, ?_, rest, List.mem_append_right _ List.mem_cons_self⟩
      have hchildren := h.children old hold
      exact (congrArg (insertChain hops) hchildren).trans (forestOf_rests_append hhops _ _).symm
    · refine ⟨hhop, ?_, rest, List.mem_append_right _ List.mem_cons_self⟩
      have hrests : rests hop.relation.name paths = [] := by
        refine List.eq_nil_iff_forall_not_mem.mpr ?_
        intro rest' hrest'
        obtain ⟨old, hold, hname⟩ := h.complete _ rest' (mem_rests.mp hrest').1
        exact hnone old hold hname
      have happend := forestOf_rests_append hhops hop.relation.name paths
      rw [hrests] at happend
      exact happend.symm
  exact {
    distinct := pairwise_graft h.distinct
    hop := fun tree htree => (hmem tree htree).1
    children := fun tree htree => (hmem tree htree).2.1
    first := fun tree htree => (hmem tree htree).2.2
    complete := by
      intro name' rest' hpath
      refine exists_mem_graft ?_
      rcases List.mem_append.mp hpath with hold | hnew
      · exact .inr (h.complete name' rest' hold)
      · exact .inl (List.cons.inj (List.mem_singleton.mp hnew)).1 }

/-- The forest of known paths has one tree for each first segment. -/
theorem isForest_forestOf {m : Model} {e : Entity} {paths : List (List String)}
    (h : AllKnown m e paths) : IsForest m e paths (forestOf m e paths) := by
  induction paths using List.reverseRecOn with
  | nil => exact ⟨.nil, nofun, nofun, nofun, nofun⟩
  | append_singleton paths path ih =>
      obtain ⟨hpaths, hpath⟩ := List.forall_mem_append.mp h
      have hforest := ih hpaths
      obtain ⟨hops, hhops⟩ := Option.isSome_iff_exists.mp (hpath path List.mem_cons_self)
      rw [forestOf_append hhops]
      cases path with
      | nil =>
          obtain rfl : [] = hops := Option.some.inj hhops
          exact hforest.append_nil
      | cons name rest =>
          rw [Model.chain?_cons, Option.bind_eq_some_iff] at hhops
          obtain ⟨hop, hhop, hrest⟩ := hhops
          obtain ⟨others, hothers, rfl⟩ := Option.map_eq_some_iff.mp hrest
          exact hforest.graft hhop hothers

end Sql

/-! ### The levels of paths -/

namespace Store

/-- The first segment of each path is among those of the level. -/
theorem exists_mem_pathHeads {paths : List (List String)} {name : String} {rest : List String}
    (h : name :: rest ∈ paths) : ∃ nested, (name, nested) ∈ pathHeads paths := by
  induction paths with
  | nil => cases h
  | cons path paths ih =>
      cases path with
      | nil => exact ih ((List.mem_cons.mp h).resolve_left (List.cons_ne_nil _ _))
      | cons first others =>
          have hcases : name = first ∨ name :: rest ∈ paths :=
            (List.mem_cons.mp h).imp_left fun heq => (List.cons.inj heq).1
          unfold pathHeads
          dsimp only
          split
          · by_cases hname : name = first
            · subst hname
              exact ⟨_, List.mem_cons_self⟩
            · obtain ⟨nested, hnested⟩ := ih (hcases.resolve_left hname)
              refine ⟨nested, List.mem_cons_of_mem _ (List.mem_filter.mpr ⟨hnested, ?_⟩)⟩
              exact bne_iff_ne.mpr hname
          · rcases hcases with rfl | hpath
            · exact ⟨_, List.mem_cons_self⟩
            · obtain ⟨nested, hnested⟩ := ih hpath
              exact ⟨nested, List.mem_cons_of_mem _ hnested⟩

/-- A first segment comes with the rests of the paths that begin with it. -/
theorem mem_pathHeads {paths : List (List String)} {name : String} {nested : List (List String)}
    (h : (name, nested) ∈ pathHeads paths) :
    nested = rests name paths ∧ ∃ rest, name :: rest ∈ paths := by
  induction paths generalizing nested with
  | nil => cases h
  | cons path paths ih =>
      have hlater {nested : List (List String)} (h : (name, nested) ∈ pathHeads paths) :
          nested = rests name paths ∧ ∃ rest, name :: rest ∈ path :: paths := by
        obtain ⟨hnested, rest, hrest⟩ := ih h
        exact ⟨hnested, rest, List.mem_cons_of_mem _ hrest⟩
      cases path with
      | nil => exact hlater h
      | cons first rest =>
          have hself : rests first ((first :: rest) :: paths) =
              (if rest.isEmpty then [] else [rest]) ++ rests first paths := by
            cases rest <;> simp [rests]
          have hother (hne : first ≠ name) :
              rests name ((first :: rest) :: paths) = rests name paths := by
            simp [rests, hne]
          unfold pathHeads at h
          dsimp only at h
          split at h
          · next name' more hfind =>
              have hname := List.find?_some hfind
              obtain rfl : name' = first := beq_iff_eq.mp hname
              rcases List.mem_cons.mp h with heq | hmem
              · obtain ⟨rfl, rfl⟩ := Prod.mk.inj heq
                have hmore := (hlater (List.mem_of_find?_eq_some hfind)).1
                exact ⟨by rw [hself, hmore], rest, List.mem_cons_self⟩
              · obtain ⟨hmem, hne⟩ := List.mem_filter.mp hmem
                rw [hother (Ne.symm (bne_iff_ne.mp hne))]
                exact hlater hmem
          · next hfind =>
              have hnone {nested : List (List String)} : (first, nested) ∉ pathHeads paths :=
                fun hmem => List.find?_eq_none.mp hfind _ hmem (beq_self_eq_true first)
              rcases List.mem_cons.mp h with heq | hmem
              · obtain ⟨rfl, rfl⟩ := Prod.mk.inj heq
                have hrests : rests name paths = [] := by
                  refine List.eq_nil_iff_forall_not_mem.mpr ?_
                  intro rest' hrest'
                  obtain ⟨nested, hnested⟩ := exists_mem_pathHeads (mem_rests.mp hrest').1
                  exact hnone hnested
                exact ⟨by rw [hself, hrests, List.append_nil], rest, List.mem_cons_self⟩
              · have hne : first ≠ name := by
                  rintro rfl
                  exact hnone hmem
                rw [hother hne]
                exact hlater hmem

end Store

end EntityService
