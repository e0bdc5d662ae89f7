import EntityService.Model.Resolve
import Mathlib.Data.List.Nodup
import Mathlib.Data.List.Pairwise
import Mathlib.Tactic.SplitIfs

/-!
# Resolved models

What holds of the entities of every model that a configuration is resolved to.

## Main definitions

* `Model.IsResolved` — ids are told apart, and keys and timestamps are columns

## Main results

* `isResolved_of_resolve` — the model of a configuration is resolved
* `eq_of_mem_columnsOf` — the columns of an entity are told apart by their names
-/

namespace EntityService

open EntityService.Config EntityService.Model

/-- No two entities have the same id, and the primary key and the timestamps of an entity that
declares columns are columns of it. -/
structure Model.IsResolved (m : Model) : Prop where
  distinct : m.entities.Pairwise fun d e => d.id ≠ e.id
  declaresKey : ∀ e ∈ m.entities, e.columns ≠ [] → e.declares e.primaryKey

namespace Config

/-- Entities that pass the check have ids and path segments of their own, and columns that fit. -/
theorem of_checkEntities {before entities : List EntityDeclaration}
    (h : checkEntities before entities = .ok ()) :
    (entities.Pairwise fun d e => d.id ≠ e.id ∧ d.pathSegment ≠ e.pathSegment) ∧
      (∀ d ∈ before, ∀ e ∈ entities, d.id ≠ e.id ∧ d.pathSegment ≠ e.pathSegment) ∧
      ∀ e ∈ entities, checkColumns e = .ok () := by
  induction entities generalizing before with
  | nil => exact ⟨.nil, nofun, nofun⟩
  | cons e rest ih =>
      unfold checkEntities at h
      split_ifs at h with hid hsegment
      split at h
      · cases h
      · next hcolumns =>
          obtain ⟨hdistinct, hbefore, hrest⟩ := ih h
          have hnew : ∀ d ∈ before, d.id ≠ e.id ∧ d.pathSegment ≠ e.pathSegment := fun d hd =>
            ⟨fun heq => hid (List.any_eq_true.mpr ⟨d, hd, beq_iff_eq.mpr heq⟩),
              fun heq => hsegment (List.any_eq_true.mpr ⟨d, hd, beq_iff_eq.mpr heq⟩)⟩
          refine ⟨List.pairwise_cons.mpr ⟨hbefore e (by simp), hdistinct⟩, ?_, ?_⟩
          · intro d hd
            exact List.forall_mem_cons.mpr
              ⟨hnew d hd, hbefore d (List.mem_append_left _ hd)⟩
          · exact List.forall_mem_cons.mpr ⟨hcolumns, hrest⟩

/-- The primary key and the active flag of an entity that passes the check are columns. -/
theorem of_checkColumns {e : EntityDeclaration} (h : checkColumns e = .ok ()) :
    hasColumn e e.primaryKey ∧ ∀ flag ∈ e.activeFlag, hasColumn e flag.column := by
  unfold checkColumns at h
  split_ifs at h with hkey
  refine ⟨by simpa using hkey, fun flag hflag => ?_⟩
  rw [Option.mem_def.mp hflag] at h
  dsimp only at h
  split_ifs at h with hcolumn
  exact hcolumn

/-- A configuration passes the check when its entities, its relations and its aggregates do. -/
theorem of_check {config : Configuration} (h : config.check = .ok ()) :
    checkEntities [] config.entities = .ok () ∧
      checkRelations config.entities [] config.relations = .ok () ∧
      checkAggregates config.relations config.entities = .ok () := by
  unfold Configuration.check at h
  cases hentities : checkEntities [] config.entities with
  | error cause =>
      rw [hentities] at h
      cases h
  | ok done =>
      rw [hentities] at h
      cases hrelations : checkRelations config.entities [] config.relations with
      | error cause =>
          rw [hrelations] at h
          cases h
      | ok done =>
          rw [hrelations] at h
          exact ⟨rfl, rfl, h⟩

end Config

namespace Model

theorem mem_columnsOf {e : EntityDeclaration} {c : ColumnDeclaration} (h : c ∈ e.columns) :
    columnOf c ∈ columnsOf e := by
  unfold columnsOf
  dsimp only
  split_ifs with hempty
  · rw [List.isEmpty_iff, List.map_eq_nil_iff] at hempty
    rw [hempty] at h
    cases h
  · exact List.mem_append_left _ (List.mem_map_of_mem h)

/-- The timestamps are columns, declared or implied. -/
theorem exists_mem_columnsOf_of_timestamp {e : EntityDeclaration} {name : String}
    (hcolumns : e.columns ≠ []) (h : name = e.createdAt ∨ name = e.updatedAt) :
    ∃ c ∈ columnsOf e, c.name = name := by
  have hdeclared : ¬(e.columns.map columnOf).isEmpty := by
    rw [List.isEmpty_iff, List.map_eq_nil_iff]
    exact hcolumns
  unfold columnsOf
  dsimp only
  rw [if_neg hdeclared]
  by_cases hthere : (e.columns.map columnOf).any fun c => c.name == name
  · obtain ⟨c, hc, hname⟩ := List.any_eq_true.mp hthere
    exact ⟨c, List.mem_append_left _ hc, beq_iff_eq.mp hname⟩
  · refine ⟨impliedTimestamp name, List.mem_append_right _ (List.mem_map_of_mem ?_), rfl⟩
    rw [List.mem_filter]
    exact ⟨by simpa using h, by simpa using hthere⟩

/-- A column is declared, or it is a timestamp that is not. -/
theorem of_mem_columnsOf {d : EntityDeclaration} {c : Column} (h : c ∈ columnsOf d) :
    (∃ x ∈ d.columns, columnOf x = c) ∨
      c.name ∈ [d.createdAt, d.updatedAt] ∧ impliedTimestamp c.name = c ∧
        ∀ x ∈ d.columns, x.name ≠ c.name := by
  unfold columnsOf at h
  dsimp only at h
  split_ifs at h
  · cases h
  · rcases List.mem_append.mp h with hdeclared | himplied
    · exact .inl (List.mem_map.mp hdeclared)
    · obtain ⟨name, hname, rfl⟩ := List.mem_map.mp himplied
      obtain ⟨htimestamp, hnew⟩ := List.mem_filter.mp hname
      refine .inr ⟨htimestamp, rfl, fun x hx heq => ?_⟩
      have hthere : (d.columns.map columnOf).any fun c => c.name == name :=
        List.any_eq_true.mpr ⟨_, List.mem_map_of_mem hx, beq_iff_eq.mpr heq⟩
      simp [hthere] at hnew

/-- The columns of an entity are told apart by their names if the declared ones are. -/
theorem eq_of_mem_columnsOf {d : EntityDeclaration} (hnames : (d.columns.map (·.name)).Nodup) :
    ∀ c ∈ columnsOf d, ∀ c' ∈ columnsOf d, c.name = c'.name → c = c' := by
  intro c hc c' hc' hname
  rcases of_mem_columnsOf hc with ⟨x, hx, rfl⟩ | ⟨-, hc, hnew⟩
  · rcases of_mem_columnsOf hc' with ⟨y, hy, rfl⟩ | ⟨-, -, hnew⟩
    · rw [List.inj_on_of_nodup_map hnames hx hy hname]
    · exact absurd hname (hnew x hx)
  · rcases of_mem_columnsOf hc' with ⟨y, hy, rfl⟩ | ⟨-, hc', -⟩
    · exact absurd hname.symm (hnew y hy)
    · rw [← hc, ← hc', hname]

theorem declares_of_mem {e : Entity} {c : Column} (h : c ∈ e.columns) : e.declares c.name := by
  rw [Entity.declares, Entity.column?, List.find?_isSome]
  exact ⟨c, h, beq_self_eq_true _⟩

/-- A column is found by its name when names tell the columns apart. -/
theorem column?_of_mem {e : Entity}
    (hdistinct : ∀ c ∈ e.columns, ∀ d ∈ e.columns, c.name = d.name → c = d) {c : Column}
    (hc : c ∈ e.columns) : e.column? c.name = some c := by
  have hdeclares : (e.column? c.name).isSome := declares_of_mem hc
  obtain ⟨d, hd⟩ := Option.isSome_iff_exists.mp hdeclares
  have hname : d.name = c.name := by
    have hfound := List.find?_some hd
    exact beq_iff_eq.mp hfound
  rw [hd, hdistinct d (List.mem_of_find?_eq_some hd) c hc hname]

/-- What is a column of a declaration is a column of its entity. -/
theorem declares_entityOf {relations : List RelationDeclaration} {e : EntityDeclaration}
    {name : String} (hcolumns : e.columns ≠ []) (h : hasColumn e name) :
    (entityOf relations e).declares name := by
  have hmem : ∃ c ∈ columnsOf e, c.name = name := by
    unfold hasColumn at h
    simp only [List.isEmpty_eq_false_iff.mpr hcolumns, Bool.false_or, Bool.or_eq_true, beq_iff_eq,
      List.any_eq_true] at h
    rcases h with htimestamp | ⟨c, hc, hname⟩
    · exact exists_mem_columnsOf_of_timestamp hcolumns htimestamp
    · exact ⟨columnOf c, mem_columnsOf hc, hname⟩
  obtain ⟨c, hc, rfl⟩ := hmem
  exact declares_of_mem hc

/-- Only a configuration that passes the check has a model, and its entities are those that are
declared. -/
theorem of_resolve {config : Configuration} {m : Model} (h : Model.resolve config = .ok m) :
    config.check = .ok () ∧ m = ⟨config.entities.map (entityOf config.relations)⟩ := by
  unfold Model.resolve at h
  split at h
  · cases h
  · next hcheck =>
      cases h
      exact ⟨hcheck, rfl⟩

theorem columnsOf_eq_nil_iff {e : EntityDeclaration} : columnsOf e = [] ↔ e.columns = [] := by
  refine ⟨fun h => ?_, fun h => ?_⟩
  · by_contra hne
    obtain ⟨c, hc⟩ := List.exists_mem_of_ne_nil _ hne
    exact absurd (h ▸ mem_columnsOf hc) List.not_mem_nil
  · rw [columnsOf, h]
    rfl

/-- The model of a configuration is resolved. -/
theorem isResolved_of_resolve {config : Configuration} {m : Model}
    (h : Model.resolve config = .ok m) : m.IsResolved := by
  obtain ⟨hcheck, rfl⟩ := of_resolve h
  obtain ⟨hdistinct, -, hcolumns⟩ := of_checkEntities (of_check hcheck).1
  constructor
  · exact List.pairwise_map.mpr (hdistinct.imp And.left)
  · intro e he hne
    obtain ⟨d, hd, rfl⟩ := List.mem_map.mp he
    exact declares_entityOf (mt columnsOf_eq_nil_iff.mpr hne) (of_checkColumns (hcolumns d hd)).1

namespace IsResolved

variable {m : Model}

theorem eq_of_id_eq (h : m.IsResolved) {d e : Entity} (hd : d ∈ m.entities) (he : e ∈ m.entities)
    (hid : d.id = e.id) : d = e := by
  have : Std.Symm fun d e : Entity => d.id ≠ e.id := ⟨fun _ _ => Ne.symm⟩
  by_contra hne
  exact h.distinct.forall hd he hne hid

end IsResolved

end Model

end EntityService
