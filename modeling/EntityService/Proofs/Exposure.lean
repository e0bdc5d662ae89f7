import EntityService.Proofs.RowShapes

/-!
# Exposed columns

Rows that are loaded along relations reach a client as the database gives them, so a hidden column
of theirs is exposed as soon as a subquery lists it, by its name or by a star.  None is listed by
its name.  A star is written for every entity that declares no columns, hidden columns or not.

## Main definitions

* `RelatedList` — a list of columns in a subquery for rows of an entity, however deep
* `Exposes` — a list of columns gives hidden columns of an entity

## Main results

* `relatedList_cases` — the lists of columns are those of the entities along the paths
* `exists_relatedList` — each entity along a path has one
* `exposes_iff_undeclared` — which queries expose hidden columns
* `exposes_undeclared_writers` — one that does

## Design notes

The lists are read from the text of the query, and so is the place where they stand: a subquery
belongs to the relation whose name it has, from the entity of the query around it.  The induction is
on this place in one direction, and on the path in the other one.
-/

namespace EntityService

open EntityService.Config EntityService.Model EntityService.Query EntityService.Sql

/-- In a query for an entity with some items, a list of columns of a subquery and the entity whose
rows it is for: the subquery has the name of a relation, and stands in the query or in the subquery
of another relation. -/
inductive RelatedList (m : Model) : Entity → List Item → Entity → List Item → Prop where
  | here {e : Entity} {items inner : List Item} {name : String} {hop : Model.Hop}
      (hmem : .subquery name inner ∈ items) (hhop : m.hop? e name = some hop) :
      RelatedList m e items hop.target inner
  | inside {e target : Entity} {items inner deeper : List Item} {name : String} {hop : Model.Hop}
      (hmem : .subquery name inner ∈ items) (hhop : m.hop? e name = some hop)
      (h : RelatedList m hop.target inner target deeper) : RelatedList m e items target deeper

/-- A list of columns names a hidden column of an entity, or has a star for an entity with hidden
columns. -/
def Exposes (e : Entity) (items : List Item) : Prop :=
  (∃ source name, .column source name ∈ items ∧
    (e.hides name ∨ ∃ column ∈ source, e.hides column)) ∨
  (.star ∈ items ∧ e.sensitive ≠ [])

/-! ### Subqueries among items -/

/-- The items for the rows of an entity, with those of the relations from there. -/
def nodeItems (target : Entity) (children : List LoadTree) : List Item :=
  relatedItems target ++ Item.ofTrees children

theorem item_ofTree_eq (tree : LoadTree) :
    Item.ofTree tree = .subquery tree.name (nodeItems tree.target tree.children) := by
  cases tree with
  | node r target children => rw [Item.ofTree]; rfl

theorem mem_item_ofTrees {item : Item} {forest : List LoadTree} :
    item ∈ Item.ofTrees forest ↔ ∃ tree ∈ forest, item = Item.ofTree tree := by
  induction forest with
  | nil => simp [Item.ofTrees]
  | cons tree rest ih => simp [Item.ofTrees, ih]

theorem subquery_mem_ofTrees {name : String} {inner : List Item} {forest : List LoadTree} :
    .subquery name inner ∈ Item.ofTrees forest ↔
      ∃ tree ∈ forest, name = tree.name ∧ inner = nodeItems tree.target tree.children := by
  simp only [mem_item_ofTrees, item_ofTree_eq, Item.subquery.injEq]

/-- The columns for related rows are no subqueries. -/
theorem subquery_notMem_relatedItems (target : Entity) (name : String) (inner : List Item) :
    .subquery name inner ∉ relatedItems target := by
  intro h
  unfold relatedItems at h
  split at h
  · cases List.mem_singleton.mp h
  · obtain ⟨c, -, hc⟩ := List.mem_map.mp h
    cases hc

/-- The subqueries among items are those of a forest, or have no columns of their own. -/
def HasForest (items : List Item) (forest : List LoadTree) : Prop :=
  (∀ tree ∈ forest, Item.ofTree tree ∈ items) ∧
  ∀ name inner, .subquery name inner ∈ items →
    inner = [] ∨ .subquery name inner ∈ Item.ofTrees forest

theorem hasForest_nodeItems (target : Entity) (children : List LoadTree) :
    HasForest (nodeItems target children) children := by
  constructor
  · intro tree htree
    exact List.mem_append_right _ (mem_item_ofTrees.mpr ⟨tree, htree, rfl⟩)
  · intro name inner h
    exact .inr ((List.mem_append.mp h).resolve_left (subquery_notMem_relatedItems _ _ _))

/-- A query for a plan has the subqueries of its relations, and counts without columns. -/
theorem hasForest_planItems (m : Model) (p : Plan) (columns : List String) :
    HasForest (planItems m p columns) (relationForest m p.entity p.calls.relations) := by
  have hprojection (name : String) (inner : List Item) :
      .subquery name inner ∉ projectionItems p.entity columns := by
    intro h
    unfold projectionItems at h
    split at h
    · split at h
      · cases List.mem_singleton.mp h
      · obtain ⟨c, -, hc⟩ := List.mem_map.mp h
        cases hc
    · obtain ⟨column, -, hc⟩ := List.mem_map.mp h
      cases hc
  constructor
  · intro tree htree
    refine List.mem_append_left _ (List.mem_append_right _ ?_)
    exact mem_item_ofTrees.mpr ⟨tree, htree, rfl⟩
  · intro name inner h
    rcases List.mem_append.mp h with hitems | hcounts
    · exact .inr ((List.mem_append.mp hitems).resolve_left (hprojection name inner))
    · obtain ⟨count, -, hcount⟩ := List.mem_map.mp hcounts
      obtain ⟨-, rfl⟩ := Item.subquery.inj hcount
      exact .inl rfl

/-! ### Lists along paths -/

section Lists

variable {m : Model} {e target : Entity} {items inner : List Item} {paths : List (List String)}

/-- A relation and a path from its target make up a path. -/
theorem chain?_cons_of_hop? {name : String} {hop : Model.Hop} (hhop : m.hop? e name = some hop)
    {rest : List String} {hops : List Model.Hop} (hhops : m.chain? hop.target rest = some hops) :
    m.chain? e (name :: rest) = some (hop :: hops) := by
  rw [Model.chain?_cons, hhop, Option.bind_some, hhops]
  rfl

/-- A list of columns is empty, or it is that of an entity along one of the paths. -/
theorem relatedList_cases (h : RelatedList m e items target inner) (hknown : AllKnown m e paths)
    (hitems : HasForest items (forestOf m e paths)) :
    inner = [] ∨
      (∃ path ∈ paths, ∃ hops, m.chain? e path = some hops ∧ ∃ hop ∈ hops, hop.target = target) ∧
        ∃ children, inner = nodeItems target children := by
  -- the tree of a subquery with columns, and the paths that go on from there
  have hnode {e : Entity} {items inner : List Item} {paths : List (List String)} {name : String}
      {hop : Model.Hop} (hknown : AllKnown m e paths)
      (hitems : HasForest items (forestOf m e paths)) (hmem : .subquery name inner ∈ items)
      (hhop : m.hop? e name = some hop) (hne : inner ≠ []) :
      inner = nodeItems hop.target (forestOf m hop.target (rests name paths)) ∧
        ∃ rest, name :: rest ∈ paths := by
    have hforest := isForest_forestOf hknown
    obtain ⟨tree, htree, rfl, rfl⟩ :=
      subquery_mem_ofTrees.mp ((hitems.2 name inner hmem).resolve_left hne)
    obtain rfl : hop = ⟨tree.relation, tree.target⟩ :=
      Option.some.inj (hhop.symm.trans (hforest.hop tree htree))
    refine ⟨?_, hforest.first tree htree⟩
    rw [hforest.children tree htree]
  induction h generalizing paths with
  | @here e items inner name hop hmem hhop =>
      by_cases hne : inner = []
      · exact .inl hne
      · obtain ⟨hinner, rest, hpath⟩ := hnode hknown hitems hmem hhop hne
        obtain ⟨hops, hhops⟩ := Option.isSome_iff_exists.mp (hknown _ hpath)
        refine .inr ⟨⟨_, hpath, hops, hhops, hop, ?_, rfl⟩, _, hinner⟩
        rw [Model.chain?_cons, hhop, Option.bind_some] at hhops
        obtain ⟨others, -, rfl⟩ := Option.map_eq_some_iff.mp hhops
        exact List.mem_cons_self
  | @inside e target items inner deeper name hop hmem hhop hdeeper ih =>
      -- the list stands in another one, which is therefore not that of a count
      have hne : inner ≠ [] := by
        rintro rfl
        cases hdeeper with
        | here hnone _ => cases hnone
        | inside hnone _ _ => cases hnone
      obtain ⟨rfl, -⟩ := hnode hknown hitems hmem hhop hne
      refine (ih (hknown.rests hhop) (hasForest_nodeItems _ _)).imp_right ?_
      rintro ⟨⟨rest, hrest, hops, hhops, last, hlast, htarget⟩, hchildren⟩
      refine ⟨⟨name :: rest, (mem_rests.mp hrest).1, hop :: hops, ?_, last, ?_, htarget⟩, hchildren⟩
      · exact chain?_cons_of_hop? hhop hhops
      · exact List.mem_cons_of_mem _ hlast

/-- Each entity along a path has a list of columns, with its items. -/
theorem exists_relatedList {path : List String} (hpath : path ∈ paths)
    (hknown : AllKnown m e paths) (hitems : HasForest items (forestOf m e paths))
    {hops : List Model.Hop} (hhops : m.chain? e path = some hops) {hop : Model.Hop}
    (hhop : hop ∈ hops) :
    ∃ children, RelatedList m e items hop.target (nodeItems hop.target children) := by
  induction path generalizing e items paths hops with
  | nil =>
      obtain rfl : [] = hops := Option.some.inj hhops
      cases hhop
  | cons name rest ih =>
      have hforest := isForest_forestOf hknown
      rw [Model.chain?_cons, Option.bind_eq_some_iff] at hhops
      obtain ⟨first, hfirst, hrest⟩ := hhops
      obtain ⟨others, hothers, rfl⟩ := Option.map_eq_some_iff.mp hrest
      obtain ⟨tree, htree, rfl⟩ := hforest.complete name rest hpath
      obtain rfl : first = ⟨tree.relation, tree.target⟩ :=
        Option.some.inj (hfirst.symm.trans (hforest.hop tree htree))
      have hmem := hitems.1 tree htree
      rw [item_ofTree_eq] at hmem
      rcases List.mem_cons.mp hhop with rfl | hlater
      · exact ⟨tree.children, .here hmem hfirst⟩
      · -- the path goes on, so its rest is among the rests, which the tree is made of
        have hne : rest ≠ [] := by
          rintro rfl
          obtain rfl : [] = others := Option.some.inj hothers
          cases hlater
        have hnested : HasForest (nodeItems tree.target tree.children)
            (forestOf m tree.target (rests tree.name paths)) := by
          rw [← hforest.children tree htree]
          exact hasForest_nodeItems _ _
        obtain ⟨children, hlist⟩ :=
          ih (mem_rests.mpr ⟨hpath, hne⟩) (hknown.rests hfirst) hnested hothers hlater
        exact ⟨children, .inside hmem hfirst hlist⟩

end Lists

/-! ### Hidden columns -/

/-- A column that is listed by its name is not hidden. -/
theorem column_mem_nodeItems {target : Entity} {children : List LoadTree} {source : Option String}
    {name : String} (h : .column source name ∈ nodeItems target children) :
    target.hides name = false ∧ ∀ column ∈ source, target.hides column = false := by
  rcases List.mem_append.mp h with hcolumns | htrees
  · unfold relatedItems at hcolumns
    split at hcolumns
    · cases List.mem_singleton.mp hcolumns
    · obtain ⟨c, hc, heq⟩ := List.mem_map.mp hcolumns
      obtain ⟨rfl, rfl⟩ := Item.column.inj heq
      have hshown : target.hides c.name = false := by simpa using (List.mem_filter.mp hc).2
      refine ⟨hshown, ?_⟩
      intro column hcolumn
      rwa [← Option.some.inj hcolumn]
  · obtain ⟨tree, -, heq⟩ := mem_item_ofTrees.mp htrees
    rw [item_ofTree_eq] at heq
    cases heq

/-- A star stands for the columns of an entity that declares none. -/
theorem star_mem_nodeItems {target : Entity} {children : List LoadTree} :
    .star ∈ nodeItems target children ↔ target.columns = [] := by
  constructor
  · intro h
    rcases List.mem_append.mp h with hcolumns | htrees
    · unfold relatedItems at hcolumns
      split at hcolumns
      · next hnone => exact List.isEmpty_iff.mp hnone
      · obtain ⟨c, -, heq⟩ := List.mem_map.mp hcolumns
        cases heq
    · obtain ⟨tree, -, heq⟩ := mem_item_ofTrees.mp htrees
      rw [item_ofTree_eq] at heq
      cases heq
  · intro hnone
    refine List.mem_append_left _ ?_
    rw [relatedItems, hnone]
    exact List.mem_singleton_self _

theorem exposes_nodeItems_iff {target : Entity} {children : List LoadTree} :
    Exposes target (nodeItems target children) ↔ target.columns = [] ∧ target.sensitive ≠ [] := by
  have hnamed : ¬ ∃ source name, .column source name ∈ nodeItems target children ∧
      (target.hides name ∨ ∃ column ∈ source, target.hides column) := by
    rintro ⟨source, name, hmem, hhides⟩
    obtain ⟨hname, hsource⟩ := column_mem_nodeItems hmem
    rcases hhides with hhides | ⟨column, hcolumn, hhides⟩
    · exact Bool.eq_false_iff.mp hname hhides
    · exact Bool.eq_false_iff.mp (hsource column hcolumn) hhides
  rw [Exposes, or_iff_right hnamed, star_mem_nodeItems]

theorem not_exposes_nil (target : Entity) : ¬ Exposes target [] := by
  rintro (⟨_, _, hmem, -⟩ | ⟨hmem, -⟩) <;> cases hmem

/-- A query exposes hidden columns of related rows exactly when one of its paths leads along an
entity that hides columns and declares none.  In any case no subquery names a hidden column, and
there are stars only for entities that declare no columns. -/
theorem exposes_iff_undeclared (m : Model) (p : Plan) (columns : List String)
    (window : Option (Nat × Nat)) :
    (∀ target inner,
      RelatedList m p.entity (selectItems (select m p columns window).text) target inner →
        (∀ source name, .column source name ∈ inner →
          target.hides name = false ∧ ∀ column ∈ source, target.hides column = false) ∧
        (.star ∈ inner → target.columns = [])) ∧
      ((∃ target inner,
        RelatedList m p.entity (selectItems (select m p columns window).text) target inner ∧
          Exposes target inner) ↔
        ∃ path ∈ p.calls.relations, ∃ hops, m.pathChain? p.entity path = some hops ∧
          ∃ hop ∈ hops, hop.target.columns = [] ∧ hop.target.sensitive ≠ []) := by
  have hknown := allKnown_knownRelations m p
  have hitems := hasForest_planItems m p columns
  rw [relationForest_eq] at hitems
  rw [selectItems_select]
  refine ⟨?_, ?_, ?_⟩
  · intro target inner h
    rcases relatedList_cases h hknown hitems with rfl | ⟨-, children, rfl⟩
    · exact ⟨nofun, nofun⟩
    · exact ⟨fun _ _ => column_mem_nodeItems, star_mem_nodeItems.mp⟩
  · rintro ⟨target, inner, h, hexposes⟩
    rcases relatedList_cases h hknown hitems with rfl | ⟨⟨path, hpath, hops, hhops, hop, hhop, rfl⟩,
      children, rfl⟩
    · exact absurd hexposes (not_exposes_nil target)
    · obtain ⟨hpath, -⟩ := List.mem_filter.mp hpath
      obtain ⟨dotted, hdotted, rfl⟩ := List.mem_map.mp hpath
      exact ⟨dotted, hdotted, hops, hhops, hop, hhop, exposes_nodeItems_iff.mp hexposes⟩
  · rintro ⟨dotted, hdotted, hops, hhops, hop, hhop, hexposes⟩
    have hpath : Text.pieces '.' dotted ∈ knownRelations m p :=
      List.mem_filter.mpr ⟨List.mem_map_of_mem hdotted, Option.isSome_of_eq_some hhops⟩
    obtain ⟨children, hlist⟩ := exists_relatedList hpath hknown hitems hhops hhop
    exact ⟨hop.target, _, hlist, exposes_nodeItems_iff.mpr hexposes⟩

/-! ### Writers without columns -/

namespace Catalogue

/-- Writers that declare no columns, but still have pen names that are not shown. -/
def undeclaredWriters : EntityDeclaration := { writers with columns := [] }

/-- The catalogue with these writers. -/
def undeclaredConfig : Configuration := { config with entities := [undeclaredWriters, novels] }

@[inherit_doc undeclaredWriters]
def undeclaredWriter : Entity := Model.entityOf config.relations undeclaredWriters

/-- The model of these writers and of novels. -/
def undeclaredModel : Model := ⟨[undeclaredWriter, novel]⟩

/-- The novels with their writers. -/
def novelsWithWriters : Plan := ⟨novel, [.load "writer"]⟩

end Catalogue

open Catalogue in
/-- The query for novels with their writers gives the pen names of writers away. -/
theorem exposes_undeclared_writers :
    Model.resolve undeclaredConfig = .ok undeclaredModel ∧
      undeclaredWriter.hides "pen_name" ∧
      ∃ inner, RelatedList undeclaredModel novel
          (selectItems (select undeclaredModel novelsWithWriters [] none).text) undeclaredWriter
          inner ∧
        Exposes undeclaredWriter inner := by
  have hitems : selectItems (select undeclaredModel novelsWithWriters [] none).text =
      novel.columns.map (fun c => .kept c.name) ++ [.subquery "writer" [.star]] := by
    rw [selectItems_select]
    rfl
  have hhop : undeclaredModel.hop? novel "writer" =
      some ⟨⟨"writer", .toOne, "writers", "writer_id", "id"⟩, undeclaredWriter⟩ := rfl
  refine ⟨rfl, by decide, [.star], .here ?_ hhop, .inr ⟨List.mem_cons_self, List.cons_ne_nil _ _⟩⟩
  rw [hitems]
  exact List.mem_append_right _ List.mem_cons_self

end EntityService
