import EntityService.Proofs.Resolution
import EntityService.Proofs.RowShapes

/-!
# References of a model

What the entities of a model name exists, and what a request names of an entity is served by every
store, if the entity accepts the name.

## Main definitions

* `Model.IsClosed` — every reference of a model leads somewhere
* `Hop.last` — the entity at the end of a path
* `Memory.LoadsAlong` — the rows related to a row are loaded with it along a path

## Main results

* `isClosed_of_resolve` — the model of a configuration is closed
* `chain?_eq_none_iff` — a path leads nowhere only when a segment of it names no relation
* `isSome_subqueryAt?_planOutputs`, `loadsAlong_loaded` — relations that are known are loaded by
  both stores
* `resolve_leaves_nothing_dangling` — both together, for all that a request names

## Design notes

Relations are checked against declarations, before there are entities, and looked up in entities
later on.  What connects the two is that ids are told apart: the declaration that a check has found
by an id is the one that the entity with the id comes from.
-/

namespace EntityService

open EntityService.Config EntityService.Json EntityService.Model EntityService.Query
open EntityService.Sql EntityService.Store EntityService.Text

/-! ## Declarations that pass the check -/

namespace Config

theorem entityById_eq_ok {entities : List EntityDeclaration} {id : String} {e : EntityDeclaration}
    (h : entityById entities id = .ok e) : e ∈ entities ∧ e.id = id := by
  unfold entityById at h
  split at h
  · next found hfound =>
      obtain rfl := Except.ok.inj h
      have hid := List.find?_some hfound
      exact ⟨List.mem_of_find?_eq_some hfound, beq_iff_eq.mp hid⟩
  · cases h

/-- The keys of a relation that passes the check are columns of the two entities it connects. -/
theorem of_checkEnds {entities : List EntityDeclaration} {r : RelationDeclaration}
    (h : checkEnds entities r = .ok ()) :
    ∃ source ∈ entities, source.id = r.fromEntity ∧ hasColumn source r.localKey ∧
      ∃ target ∈ entities, target.id = r.toEntity ∧ hasColumn target r.foreignKey := by
  unfold checkEnds at h
  cases hsource : entityById entities r.fromEntity with
  | error cause =>
      rw [hsource] at h
      cases h
  | ok source =>
      cases htarget : entityById entities r.toEntity with
      | error cause =>
          rw [hsource, htarget] at h
          cases h
      | ok target =>
          rw [hsource, htarget] at h
          change (if hasColumn source r.localKey && hasColumn target r.foreignKey then _
            else _) = _ at h
          split_ifs at h with hkeys
          rw [Bool.and_eq_true] at hkeys
          obtain ⟨hsource, hsourceId⟩ := entityById_eq_ok hsource
          obtain ⟨htarget, htargetId⟩ := entityById_eq_ok htarget
          exact ⟨source, hsource, hsourceId, hkeys.1, target, htarget, htargetId, hkeys.2⟩

/-- Relations that pass the check have names of their own in their entity. -/
theorem of_checkRelations {entities : List EntityDeclaration}
    {before relations : List RelationDeclaration}
    (h : checkRelations entities before relations = .ok ()) :
    (relations.Pairwise fun r s => ¬(r.fromEntity = s.fromEntity ∧ r.name = s.name)) ∧
      (∀ r ∈ before, ∀ s ∈ relations, ¬(r.fromEntity = s.fromEntity ∧ r.name = s.name)) ∧
      ∀ r ∈ relations, checkEnds entities r = .ok () := by
  induction relations generalizing before with
  | nil => exact ⟨.nil, nofun, nofun⟩
  | cons r rest ih =>
      unfold checkRelations at h
      split_ifs at h with hname
      split at h
      · cases h
      · next hends =>
          obtain ⟨hdistinct, hbefore, hrest⟩ := ih h
          have hnew : ∀ s ∈ before, ¬(s.fromEntity = r.fromEntity ∧ s.name = r.name) := by
            rintro s hs ⟨hfrom, heq⟩
            exact hname (List.any_eq_true.mpr ⟨s, hs, by simp [hfrom, heq]⟩)
          refine ⟨List.pairwise_cons.mpr ⟨hbefore r (by simp), hdistinct⟩, ?_, ?_⟩
          · intro s hs
            exact List.forall_mem_cons.mpr
              ⟨hnew s hs, hbefore s (List.mem_append_left _ hs)⟩
          · exact List.forall_mem_cons.mpr ⟨hends, hrest⟩

/-- The aggregates of entities that pass the check are relations. -/
theorem of_checkAggregates {relations : List RelationDeclaration}
    {entities : List EntityDeclaration} (h : checkAggregates relations entities = .ok ()) :
    ∀ e ∈ entities, ∀ name ∈ e.aggregates,
      ∃ r ∈ relations, r.fromEntity = e.id ∧ r.name = name := by
  induction entities with
  | nil => exact nofun
  | cons e rest ih =>
      unfold checkAggregates at h
      split at h
      · cases h
      · next hnone =>
          refine List.forall_mem_cons.mpr ⟨fun name hname => ?_, ih h⟩
          have hknown := List.filter_eq_nil_iff.mp hnone name hname
          simpa using hknown

end Config

/-! ## Closed models -/

/-- Ids, path segments and the names of relations are told apart, relations lead to entities and
connect columns of both, the columns that an entity names are its own, and what may be counted is a
relation.  An entity that declares no columns takes any. -/
structure Model.IsClosed (m : Model) : Prop where
  ids : m.entities.Pairwise fun d e => d.id ≠ e.id
  segments : m.entities.Pairwise fun d e => d.pathSegment ≠ e.pathSegment
  columns : ∀ e ∈ m.entities, e.columns ≠ [] →
    e.declares e.primaryKey ∧ e.declares e.createdAt ∧ e.declares e.updatedAt ∧
      ∀ flag ∈ e.activeFlag, e.declares flag.column
  names : ∀ e ∈ m.entities, e.relations.Pairwise fun r s => r.name ≠ s.name
  relations : ∀ e ∈ m.entities, ∀ r ∈ e.relations, ∃ target,
    m.entity? r.target = some target ∧ (e.columns ≠ [] → e.declares r.localKey) ∧
      (target.columns ≠ [] → target.declares r.foreignKey)
  aggregates : ∀ e ∈ m.entities, ∀ name ∈ e.aggregates, ∃ r ∈ e.relations, r.name = name

namespace Model

/-- In a list in which a property tells members apart, a member is found by it. -/
theorem find?_eq_of_pairwise {α : Type} {key : α → String} {xs : List α}
    (h : xs.Pairwise fun x y => key x ≠ key y) {x : α} (hx : x ∈ xs) :
    xs.find? (fun y => key y == key x) = some x := by
  induction xs with
  | nil => cases hx
  | cons first rest ih =>
      obtain ⟨hfirst, hrest⟩ := List.pairwise_cons.mp h
      rw [List.find?_cons]
      rcases List.mem_cons.mp hx with rfl | hx
      · rw [beq_self_eq_true]
      · rw [beq_false_of_ne (hfirst x hx)]
        exact ih hrest hx

/-- The timestamps are columns of every entity. -/
theorem hasColumn_timestamps (e : EntityDeclaration) :
    hasColumn e e.createdAt ∧ hasColumn e e.updatedAt := by
  simp [hasColumn]

/-- The model of a configuration is closed. -/
theorem isClosed_of_resolve {config : Configuration} {m : Model}
    (h : Model.resolve config = .ok m) : m.IsClosed := by
  obtain ⟨hcheck, rfl⟩ := of_resolve h
  obtain ⟨hentities, hrelations, haggregates⟩ := of_check hcheck
  obtain ⟨hdistinct, -, hcolumns⟩ := of_checkEntities hentities
  obtain ⟨hnames, -, hends⟩ := of_checkRelations hrelations
  have hids : (config.entities.map (entityOf config.relations)).Pairwise fun d e => d.id ≠ e.id :=
    List.pairwise_map.mpr (hdistinct.imp And.left)
  -- the columns of an entity are those of its declaration
  have hdeclares {d : EntityDeclaration} {name : String} (hname : hasColumn d name)
      (hne : (entityOf config.relations d).columns ≠ []) :
      (entityOf config.relations d).declares name :=
    declares_entityOf (mt columnsOf_eq_nil_iff.mpr hne) hname
  exact {
    ids := hids
    segments := List.pairwise_map.mpr (hdistinct.imp And.right)
    columns := by
      intro e he hne
      obtain ⟨d, hd, rfl⟩ := List.mem_map.mp he
      obtain ⟨hkey, hflag⟩ := of_checkColumns (hcolumns d hd)
      obtain ⟨hcreated, hupdated⟩ := hasColumn_timestamps d
      exact ⟨hdeclares hkey hne, hdeclares hcreated hne, hdeclares hupdated hne,
        fun flag hflagged => hdeclares (hflag flag hflagged) hne⟩
    names := by
      intro e he
      obtain ⟨d, -, rfl⟩ := List.mem_map.mp he
      refine List.pairwise_map.mpr (List.pairwise_filter.mpr (hnames.imp fun hne hr hs heq => ?_))
      exact hne ⟨(beq_iff_eq.mp hr).trans (beq_iff_eq.mp hs).symm, heq⟩
    relations := by
      intro e he r hr
      obtain ⟨d, hd, rfl⟩ := List.mem_map.mp he
      obtain ⟨s, hs, rfl⟩ := List.mem_map.mp hr
      obtain ⟨hs, hfrom⟩ := List.mem_filter.mp hs
      obtain ⟨source, hsource, hsourceId, hlocal, target, htarget, htargetId, hforeign⟩ :=
        of_checkEnds (hends s hs)
      -- the entity that the relation starts from is the one that it is a relation of
      obtain rfl : source = d := by
        have hid : source.id = d.id := hsourceId.trans (beq_iff_eq.mp hfrom)
        have hfound := find?_eq_of_pairwise (hdistinct.imp And.left) hd
        rw [← hid, find?_eq_of_pairwise (hdistinct.imp And.left) hsource] at hfound
        exact Option.some.inj hfound
      refine ⟨entityOf config.relations target, ?_, hdeclares hlocal, hdeclares hforeign⟩
      change Model.entity? _ s.toEntity = _
      rw [← htargetId]
      exact find?_eq_of_pairwise hids (List.mem_map_of_mem htarget)
    aggregates := by
      intro e he name hname
      obtain ⟨d, hd, rfl⟩ := List.mem_map.mp he
      obtain ⟨r, hr, hfrom, rfl⟩ := of_checkAggregates haggregates d hd name hname
      exact ⟨relationOf r, List.mem_map_of_mem (List.mem_filter.mpr ⟨hr, by simp [hfrom]⟩), rfl⟩ }

/-! ### Paths -/

/-- The entity at the end of the steps of a path. -/
def Hop.last (e : Entity) (hops : List Hop) : Entity := hops.foldl (fun _ hop => hop.target) e

namespace IsClosed

variable {m : Model} {e : Entity}

/-- Only where there is no relation with the name there is no step. -/
theorem hop?_eq_none_iff (h : m.IsClosed) (he : e ∈ m.entities) {name : String} :
    m.hop? e name = none ↔ e.relation? name = none := by
  unfold hop?
  cases hrelation : e.relation? name with
  | none => exact iff_of_true rfl rfl
  | some r =>
      obtain ⟨target, htarget, -⟩ := h.relations e he r (List.mem_of_find?_eq_some hrelation)
      exact iff_of_false (by simp [htarget]) nofun

/-- There is a step for each aggregate. -/
theorem exists_hop_of_mem_aggregates (h : m.IsClosed) (he : e ∈ m.entities) {name : String}
    (hname : name ∈ e.aggregates) : ∃ hop, m.hop? e name = some hop := by
  refine Option.ne_none_iff_exists'.mp fun hnone => ?_
  obtain ⟨r, hr, heq⟩ := h.aggregates e he name hname
  have hmissing := List.find?_eq_none.mp ((h.hop?_eq_none_iff he).mp hnone) r hr
  exact hmissing (beq_iff_eq.mpr heq)

/-- The step along a relation is found by its name. -/
theorem exists_hop?_eq (h : m.IsClosed) (he : e ∈ m.entities) {r : Relation}
    (hr : r ∈ e.relations) :
    ∃ target, m.entity? r.target = some target ∧ m.hop? e r.name = some ⟨r, target⟩ := by
  obtain ⟨target, htarget, -⟩ := h.relations e he r hr
  have hfound : e.relation? r.name = some r := find?_eq_of_pairwise (h.names e he) hr
  refine ⟨target, htarget, ?_⟩
  rw [hop?, hfound]
  change (m.entity? r.target).bind _ = _
  rw [htarget]
  rfl

/-- A path leads nowhere only when a segment of it names no relation of the entity that the segments
before it lead to. -/
theorem chain?_eq_none_iff (h : m.IsClosed) (he : e ∈ m.entities) {path : List String} :
    m.chain? e path = none ↔ ∃ before name after hops, path = before ++ name :: after ∧
      m.chain? e before = some hops ∧ (Hop.last e hops).relation? name = none := by
  induction path generalizing e with
  | nil =>
      refine iff_of_false nofun ?_
      rintro ⟨before, name, after, -, hpath, -⟩
      exact List.append_ne_nil_of_right_ne_nil before (List.cons_ne_nil name after) hpath.symm
  | cons first rest ih =>
      rw [chain?_cons]
      cases hfirst : m.hop? e first with
      | none =>
          refine iff_of_true rfl ⟨[], first, rest, [], rfl, rfl, ?_⟩
          exact (h.hop?_eq_none_iff he).mp hfirst
      | some hop =>
          rw [Option.bind_some, Option.map_eq_none_iff, ih (of_hop? hfirst).2.2]
          constructor
          · rintro ⟨before, name, after, hops, rfl, hbefore, hnone⟩
            refine ⟨first :: before, name, after, hop :: hops, rfl, ?_, hnone⟩
            rw [chain?_cons, hfirst, Option.bind_some, hbefore, Option.map_some]
          · rintro ⟨before, name, after, hops, hpath, hbefore, hnone⟩
            cases before with
            | nil =>
                -- the first segment does name a relation
                obtain rfl : [] = hops := Option.some.inj hbefore
                obtain ⟨rfl, rfl⟩ := List.cons.inj hpath
                have hmissing := (h.hop?_eq_none_iff he).mpr hnone
                rw [hfirst] at hmissing
                cases hmissing
            | cons other before =>
                obtain ⟨rfl, rfl⟩ := List.cons.inj hpath
                rw [chain?_cons, hfirst, Option.bind_some] at hbefore
                obtain ⟨later, hlater, rfl⟩ := Option.map_eq_some_iff.mp hbefore
                exact ⟨before, name, after, later, rfl, hlater, hnone⟩

end IsClosed

end Model

/-! ## What is asked for is there -/

/-- The outputs of a query have subqueries along the paths, and end with those for the counts. -/
def Sql.AsksFor (paths counts : List String) (outputs : List Output) : Prop :=
  (∀ path ∈ paths, (subqueryAt? (pieces '.' path) outputs).isSome) ∧
    (counts.map fun name => .subquery (Naming.countKey name) []) <:+ outputs

namespace Store.Memory

/-- The rows related to a row are loaded with it along a path: they stand under the first segment,
and with each of them the rows related to it along the rest. -/
def LoadsAlong (store : Memory) : Entity → Record → List String → Record → Prop
  | _, _, [], _ => True
  | e, row, name :: rest, loaded => ∃ hop rows, store.model.hop? e name = some hop ∧
      Record.cell loaded name = relationValue hop.relation.kind rows ∧
      List.Forall₂ (fun other shown =>
          (∃ more, shown = Record.putAll (hop.target.withoutHidden other) more) ∧
            LoadsAlong store hop.target other rest shown)
        (store.relatedRows hop.relation hop.target row) rows

/-- A value is a row of an entity with the rows related to it along the paths, and with the
counts. -/
def Serves (store : Memory) (e : Entity) (paths counts : List String) (value : Value) : Prop :=
  ∃ row ∈ store.rows e.id, ∃ loaded counted : Record,
    value = .object (Record.putAll loaded counted) ∧
    (∀ path ∈ paths, store.LoadsAlong e row (pieces '.' path) loaded) ∧
    List.Forall₂ (fun name member => ∃ hop, store.model.hop? e name = some hop ∧
      member = (Naming.countKey name,
        .ofNat (store.relatedRows hop.relation hop.target row).length))
      counts counted

/-- Along a known path the related rows are loaded, level by level. -/
theorem loadsAlong_loaded {store : Memory} {path : List String} {e : Entity}
    {paths : List (List String)} (h : AllKnown store.model e paths) {depth : Nat}
    (hdepth : ∀ path ∈ paths, path.length ≤ depth) (hpath : path ∈ paths) (base row : Record) :
    store.LoadsAlong e row path (Record.putAll base (store.loaded depth e row paths)) := by
  induction path generalizing e paths depth base row with
  | nil => exact trivial
  | cons name rest ih =>
      have hmem := @Record.mem_of_cell_putAll base _ name
        ((mem_keys_loaded h hdepth row name).mpr ⟨rest, hpath⟩)
      cases depth with
      | zero => exact absurd (hdepth _ hpath) (Nat.not_succ_le_zero _)
      | succ depth =>
          obtain ⟨-, hop, hhop, hvalue⟩ := mem_loaded.mp hmem
          refine ⟨hop, _, hhop, hvalue, ?_⟩
          refine List.forall₂_map_right_iff.mpr
            (List.forall₂_same.mpr fun other _ => ⟨⟨_, rfl⟩, ?_⟩)
          cases rest with
          | nil => exact trivial
          | cons second others =>
              refine ih (h.rests hhop) (fun path hrest => ?_)
                (mem_rests.mpr ⟨hpath, List.cons_ne_nil _ _⟩) _ other
              exact Nat.le_of_succ_le_succ (hdepth _ (mem_rests.mp hrest).1)

end Store.Memory

namespace Sql

variable {m : Model}

/-- Along a known path there are subqueries, level by level. -/
theorem isSome_subqueryAt?_relatedOutputs {path : List String} {e : Entity}
    {paths : List (List String)} (h : AllKnown m e paths) (hpath : path ∈ paths) :
    (subqueryAt? path (relatedOutputs e (forestOf m e paths))).isSome := by
  induction path generalizing e paths with
  | nil => rfl
  | cons name rest ih =>
      obtain ⟨hop, hhop⟩ := h.exists_hop hpath
      rw [subqueryAt?, subquery?_relatedOutputs h hpath hhop, Option.bind_some]
      cases rest with
      | nil => rfl
      | cons second others =>
          exact ih (h.rests hhop) (mem_rests.mpr ⟨hpath, List.cons_ne_nil _ _⟩)

theorem isSome_subqueryAt?_planOutputs {p : Plan} {path : List String}
    (hpath : path ∈ knownRelations m p) (columns : List String) :
    (subqueryAt? path (planOutputs m p columns)).isSome := by
  have hknown := allKnown_knownRelations m p
  cases path with
  | nil => rfl
  | cons name rest =>
      obtain ⟨hop, hhop⟩ := hknown.exists_hop hpath
      rw [subqueryAt?, subquery?_planOutputs hpath hhop, Option.bind_some]
      cases rest with
      | nil => rfl
      | cons second others =>
          exact isSome_subqueryAt?_relatedOutputs (hknown.rests hhop)
            (mem_rests.mpr ⟨hpath, List.cons_ne_nil _ _⟩)

end Sql

/-! ### Requests -/

section Requests

variable {m : Model} {e : Entity} {toLoad toCount : Option String} {state : Pending}
  {sorts : List SortKey} {clauses : List Clause} {inclusion : Inclusion}

/-- A path that is accepted is among the known ones of the plan. -/
theorem mem_knownRelations_compose {path : String} (hpath : path ∈ inclusion.relations)
    (hknown : (m.knownNames e).path path) :
    pieces '.' path ∈ knownRelations m ⟨e, compose state inclusion sorts clauses⟩ := by
  refine List.mem_filter.mpr ⟨List.mem_map_of_mem ?_, hknown⟩
  rw [relations_compose, List.mem_eraseDups]
  exact List.mem_append_right _ hpath

theorem counts_compose_resolveInclusion :
    (compose state (resolveInclusion toLoad toCount (m.knownNames e)) sorts clauses).counts =
      (resolveInclusion toLoad toCount (m.knownNames e)).counts := by
  rw [counts_compose, resolveInclusion, eraseDups_eraseDups]

/-- What is accepted to be counted is an aggregate. -/
theorem mem_aggregates_of_mem_counts {name : String}
    (h : name ∈ (resolveInclusion toLoad toCount (m.knownNames e)).counts) :
    name ∈ e.aggregates :=
  List.contains_iff_mem.mp (aggregate_of_mem_counts h)

/-- Each count of a plan has its member, if there are relations with the names. -/
theorem forall₂_counted {store : Memory} {p : Plan} {row : Record}
    (h : ∀ name ∈ p.calls.counts, ∃ hop, store.model.hop? p.entity name = some hop) :
    List.Forall₂ (fun name member => ∃ hop, store.model.hop? p.entity name = some hop ∧
        member = (Naming.countKey name,
          .ofNat (store.relatedRows hop.relation hop.target row).length))
      p.calls.counts (store.counted p row) := by
  unfold Memory.counted
  generalize p.calls.counts = names at h
  induction names with
  | nil => exact .nil
  | cons name rest ih =>
      obtain ⟨⟨hop, hhop⟩, hrest⟩ := List.forall_mem_cons.mp h
      have hrelated := @related?_eq store p.entity row name
      rw [hhop, Option.map_some] at hrelated
      rw [List.filterMap_cons_some (by rw [hrelated]; rfl)]
      exact .cons ⟨hop, hhop, rfl⟩ (ih hrest)

variable (hclosed : m.IsClosed) (he : e ∈ m.entities)

include hclosed he

/-- A database is asked for all that is accepted. -/
theorem asksFor_select (columns : List String) (window : Option (Nat × Nat)) :
    AsksFor ((resolveInclusion toLoad toCount (m.knownNames e)).relations.filter
        (m.knownNames e).path) (resolveInclusion toLoad toCount (m.knownNames e)).counts
      (selectOutputs (select m
        ⟨e, compose state (resolveInclusion toLoad toCount (m.knownNames e)) sorts clauses⟩
        columns window).text) := by
  rw [selectOutputs_select]
  constructor
  · intro path hpath
    obtain ⟨hpath, hknown⟩ := List.mem_filter.mp hpath
    exact isSome_subqueryAt?_planOutputs (mem_knownRelations_compose hpath hknown) columns
  · have hcounts : knownCounts m e (resolveInclusion toLoad toCount (m.knownNames e)).counts =
        (resolveInclusion toLoad toCount (m.knownNames e)).counts :=
      List.filter_eq_self.mpr fun name hname => Option.isSome_iff_exists.mpr
        (hclosed.exists_hop_of_mem_aggregates he (mem_aggregates_of_mem_counts hname))
    rw [planOutputs, counts_compose_resolveInclusion, hcounts]
    exact List.suffix_append _ _

/-- A store in memory gives rows with all that is accepted. -/
theorem serves_shown {store : Memory} (hstore : store.model = m) (columns : List String)
    {row : Record} (hrow : row ∈ store.rows e.id) :
    store.Serves e ((resolveInclusion toLoad toCount (m.knownNames e)).relations.filter
        (m.knownNames e).path) (resolveInclusion toLoad toCount (m.knownNames e)).counts
      (store.shown ⟨e, compose state (resolveInclusion toLoad toCount (m.knownNames e)) sorts
        clauses⟩ columns row) := by
  subst hstore
  refine ⟨row, hrow, _, _, shown_eq columns row, ?_, ?_⟩
  · intro path hpath
    obtain ⟨hpath, hknown⟩ := List.mem_filter.mp hpath
    exact Memory.loadsAlong_loaded (allKnown_knownRelations _ _) (fun _ => length_le_depth)
      (mem_knownRelations_compose hpath hknown) _ row
  · have hcounted := @forall₂_counted store
      ⟨e, compose state (resolveInclusion toLoad toCount (store.model.knownNames e)) sorts clauses⟩
      row
    rw [counts_compose_resolveInclusion] at hcounted
    exact hcounted fun name hname =>
      hclosed.exists_hop_of_mem_aggregates he (mem_aggregates_of_mem_counts hname)

end Requests

/-- Nothing that a model refers to is missing.  Each path segment leads to the one entity that is
declared with it, the model is closed, a relation path leads nowhere only when a segment of it names
no relation, and whatever an entity accepts from the directives of a request is asked of a database
and given by a store in memory: the relations along each path that is known, and each count. -/
theorem resolve_leaves_nothing_dangling {config : Configuration} {m : Model}
    (h : Model.resolve config = .ok m) :
    (∀ d ∈ config.entities, m.entityAt? d.pathSegment = some (entityOf config.relations d) ∧
      ∀ other ∈ config.entities, other.pathSegment = d.pathSegment → other = d) ∧
    m.IsClosed ∧
    ∀ e ∈ m.entities,
      (∀ path, m.pathChain? e path = none ↔ ∃ before name after hops,
        pieces '.' path = before ++ name :: after ∧ m.chain? e before = some hops ∧
          (Hop.last e hops).relation? name = none) ∧
      ∀ toLoad toCount state sorts clauses columns,
        let inclusion := resolveInclusion toLoad toCount (m.knownNames e)
        let paths := inclusion.relations.filter (m.knownNames e).path
        let p : Plan := ⟨e, compose state inclusion sorts clauses⟩
        (∀ window,
          AsksFor paths inclusion.counts (selectOutputs (select m p columns window).text)) ∧
        ∀ store : Memory, store.model = m →
          (∃ values, (Storage.get p columns store).1 = .ok values ∧
            ∀ value ∈ values, store.Serves e paths inclusion.counts value) ∧
          ∀ perPage page, ∃ result, (Storage.paginate p columns perPage page store).1 = .ok result ∧
            ∀ value ∈ result.rows, store.Serves e paths inclusion.counts value := by
  have hclosed := isClosed_of_resolve h
  refine ⟨?_, hclosed, fun e he => ⟨fun path => hclosed.chain?_eq_none_iff he, ?_⟩⟩
  · obtain ⟨hcheck, rfl⟩ := of_resolve h
    have hdistinct := (of_checkEntities (of_check hcheck).1).1.imp And.right
    intro d hd
    refine ⟨find?_eq_of_pairwise hclosed.segments (List.mem_map_of_mem hd), ?_⟩
    intro other hother hsegment
    have hfound := find?_eq_of_pairwise hdistinct hother
    rw [hsegment, find?_eq_of_pairwise hdistinct hd] at hfound
    exact (Option.some.inj hfound).symm
  · intro toLoad toCount state sorts clauses columns inclusion paths p
    refine ⟨asksFor_select hclosed he columns, fun store hstore => ?_⟩
    have hserves {rows : List Record} (hrows : rows ⊆ store.selected p) :
        ∀ value ∈ rows.map (store.shown p columns),
          store.Serves e paths inclusion.counts value := by
      intro value hvalue
      obtain ⟨row, hrow, rfl⟩ := List.mem_map.mp hvalue
      exact serves_shown hclosed he hstore columns (selection_subset p _ (hrows hrow))
    exact ⟨⟨_, Memory.get_fst p columns store, hserves (limited_subset _ _)⟩,
      fun perPage page => ⟨_, Memory.paginate_fst p columns perPage page store,
        hserves (Page.window_subset _ _ _)⟩⟩

open Catalogue in
/-- The novels of the writers of novels are asked for and given, and what there is not is passed
over. -/
theorem resolve_leaves_nothing_dangling_catalogue :
    Model.resolve config = .ok model ∧ model.entityAt? "novels" = some novel ∧
      (resolveInclusion (some "ghost,writer.novels") (some "ghost") (model.knownNames novel)) =
        ⟨["ghost", "writer.novels"], []⟩ ∧
      AsksFor ["writer.novels"] [] (selectOutputs (select model
        ⟨novel, compose (.fresh none) ⟨["ghost", "writer.novels"], []⟩ [] []⟩ [] none).text) := by
  have hmodel : Model.resolve config = .ok model := rfl
  obtain ⟨hsegments, -, hserved⟩ := resolve_leaves_nothing_dangling hmodel
  have hnovel : novel ∈ model.entities := List.mem_cons_of_mem _ List.mem_cons_self
  have hinclusion : resolveInclusion (some "ghost,writer.novels") (some "ghost")
      (model.knownNames novel) = ⟨["ghost", "writer.novels"], []⟩ := by decide +kernel
  refine ⟨hmodel, (hsegments novels (List.mem_cons_of_mem _ List.mem_cons_self)).1, hinclusion, ?_⟩
  have hasked := ((hserved novel hnovel).2 (some "ghost,writer.novels") (some "ghost") (.fresh none)
    [] [] []).1 none
  rw [hinclusion] at hasked
  have hpaths : ["ghost", "writer.novels"].filter (model.knownNames novel).path =
      ["writer.novels"] := by decide +kernel
  rwa [hpaths] at hasked

end EntityService
