import EntityService.Proofs.References
import EntityService.Proofs.SnakeCase
import Mathlib.Data.List.Nodup

/-!
# Counts of loaded relations

A row for which a relation is both loaded and counted shows the count of what it shows.

## Main definitions

* `Plan.Loads` — a plan loads a relation, along its own path or a longer one
* `Memory.IsGiven` — a value is given by a store for a plan
* `CountAgrees` — a row shows a relation with its count
* `ShowsRelated` — the rows that are shown are those that are related

## Main results

* `nodup_relationKeys` — no two relations, nor a relation and a count, are shown under one key
* `counts_agree_with_loaded_relations` — in a row that is given, counts agree with what is loaded

## Design notes

A relation is loaded under its name and counted under a key made of its name, both into one row.
What one of them has written is found there because no other relation or count writes under the same
key, and this is where the spelling of the names counts.
-/

namespace EntityService

open EntityService.Config EntityService.Json EntityService.Model EntityService.Query
open EntityService.Store EntityService.Text

/-- A plan loads a relation: a path that leads from entity to entity has its name as the first
segment. -/
def Model.Plan.Loads (m : Model) (p : Plan) (name : String) : Prop :=
  ∃ path ∈ p.calls.relations, (m.pathChain? p.entity path).isSome ∧
    (pieces '.' path).head? = some name

/-- A store gives a value for a plan: among all rows, on a page of them, or as the first one. -/
def Store.Memory.IsGiven (store : Memory) (p : Plan) (columns : List String) (value : Value) :
    Prop :=
  (∃ values, (Storage.get p columns store).1 = .ok values ∧ value ∈ values) ∨
  (∃ perPage page result, (Storage.paginate p columns perPage page store).1 = .ok result ∧
    value ∈ result.rows) ∨
  (Storage.first p columns store).1 = .ok (some value)

/-- A row shows a relation with its count: the length of the array, or zero exactly for the null
that stands for no object. -/
def CountAgrees (row : Record) (r : Relation) : Prop :=
  ∃ count, Record.get? row (Naming.countKey r.name) = some (.ofNat count) ∧
    match r.kind with
    | .toMany => ∃ items, Record.get? row r.name = some (.array items) ∧ items.length = count
    | .toOne => ∃ object, Record.get? row r.name = some object ∧ (object = .null ↔ count = 0)

/-- A row shows the rows that are related to a stored one, each without its hidden columns and with
what is loaded for it, and their count. -/
def ShowsRelated (store : Memory) (stored row : Record) (r : Relation) (target : Entity) : Prop :=
  ∃ rows, List.Forall₂ (fun other shown =>
      ∃ more, shown = Record.putAll (target.withoutHidden other) more)
        (store.relatedRows r target stored) rows ∧
    Record.get? row r.name = some (relationValue r.kind rows) ∧
    Record.get? row (Naming.countKey r.name) = some (.ofNat rows.length)

/-- A row that shows related rows and their count shows the relation with its count. -/
theorem ShowsRelated.countAgrees {store : Memory} {stored row : Record} {r : Relation}
    {target : Entity} (h : ShowsRelated store stored row r target) : CountAgrees row r := by
  obtain ⟨rows, -, hloaded, hcounted⟩ := h
  refine ⟨rows.length, hcounted, ?_⟩
  cases hkind : r.kind with
  | toMany =>
      rw [hkind] at hloaded
      exact ⟨rows.map .object, hloaded, List.length_map _⟩
  | toOne =>
      rw [hkind] at hloaded
      refine ⟨_, hloaded, ?_⟩
      rw [List.length_eq_zero_iff]
      cases rows with
      | nil => exact iff_of_true rfl rfl
      | cons first rest => exact iff_of_false nofun (List.cons_ne_nil _ _)

/-! ### Keys -/

/-- The keys that the relations of an entity and their counts are shown under are different. -/
theorem nodup_relationKeys {e : Entity}
    (hdistinct : e.relations.Pairwise fun r s => r.name ≠ s.name)
    (hnames : ∀ r ∈ e.relations, Naming.IsCamelName r.name) :
    (e.relations.flatMap fun r => [r.name, Naming.countKey r.name]).Nodup := by
  have hcount {s : String} (hs : Naming.IsCamelName s) (t : String) : s ≠ Naming.countKey t :=
    fun heq => Naming.not_isCamelName_countKey t (heq ▸ hs)
  rw [List.nodup_flatMap]
  constructor
  · intro r hr
    refine List.nodup_cons.mpr ⟨fun hmem => ?_, List.nodup_singleton _⟩
    exact hcount (hnames r hr) r.name (List.mem_singleton.mp hmem)
  · refine hdistinct.imp_of_mem fun {r s} hr hs hne => ?_
    have hr := hnames r hr
    have hs := hnames s hs
    intro key hkey hother
    simp only [List.mem_cons, List.not_mem_nil, or_false] at hkey hother
    rcases hkey with rfl | rfl
    · exact hother.elim hne (hcount hr s.name)
    · exact hother.elim (fun heq => hcount hs r.name heq.symm) fun heq =>
        hne (Naming.eq_of_countKey_eq hr hs heq)

/-! ### Rows -/

section Rows

variable {store : Memory} {p : Plan} {r : Relation} {target : Entity}

/-- A plan loads a relation if it is the first of a known path. -/
theorem exists_mem_knownRelations {m : Model} {name : String} (h : p.Loads m name) :
    ∃ rest, name :: rest ∈ knownRelations m p := by
  obtain ⟨path, hpath, hknown, hhead⟩ := h
  obtain ⟨rest, hrest⟩ := List.head?_eq_some_iff.mp hhead
  refine ⟨rest, ?_⟩
  rw [← hrest]
  exact List.mem_filter.mpr ⟨List.mem_map_of_mem hpath, hknown⟩

variable (hnames : ∀ r ∈ p.entity.relations, Naming.IsCamelName r.name)

include hnames

/-- Under the key of its count stands the count of a relation, whatever else is counted. -/
theorem get?_countKey_putAll_counted (hcounts : r.name ∈ p.calls.counts)
    (hhop : store.model.hop? p.entity r.name = some ⟨r, target⟩) (base stored : Record) :
    Record.get? (Record.putAll base (store.counted p stored)) (Naming.countKey r.name) =
      some (.ofNat (store.relatedRows r target stored).length) := by
  have hkey : Naming.countKey r.name ∈ Record.keys (store.counted p stored) :=
    Record.mem_keys_of_mem (mem_counted.mpr ⟨r.name, hcounts, _, hhop, rfl⟩)
  rw [Record.get?_eq_some_cell (Record.mem_keys_putAll.mpr (.inr hkey))]
  obtain ⟨name, -, hop, hname, heq⟩ := mem_counted.mp (Record.mem_of_cell_putAll hkey)
  obtain ⟨hsame, hcell⟩ := Prod.mk.inj heq
  -- only the relation itself is counted under the key
  obtain ⟨rfl, hrelation, -⟩ := of_hop? hname
  have hmem : r ∈ p.entity.relations := (of_hop? hhop).2.1
  rw [← Naming.eq_of_countKey_eq (hnames r hmem) (hnames _ hrelation) hsame, hhop] at hname
  obtain rfl := Option.some.inj hname
  rw [hcell]

/-- No count is put under the name of a relation. -/
theorem not_mem_keys_counted (hr : r ∈ p.entity.relations) (stored : Record) :
    r.name ∉ Record.keys (store.counted p stored) := by
  intro hmem
  obtain ⟨name, -, heq⟩ := List.mem_map.mp (mem_keys_counted.mp hmem)
  exact Naming.not_isCamelName_countKey name (heq ▸ hnames r hr)

/-- A row of a plan shows each relation that is loaded and counted. -/
theorem showsRelated_shownRecord (hhop : store.model.hop? p.entity r.name = some ⟨r, target⟩)
    (hloads : p.Loads store.model r.name) (hcounts : r.name ∈ p.calls.counts)
    (columns : List String) (stored : Record) :
    ShowsRelated store stored (shownRecord store p columns stored) r target := by
  obtain ⟨rest, hpath⟩ := exists_mem_knownRelations hloads
  have hknown := allKnown_knownRelations store.model p
  have hkey := (mem_keys_loaded hknown (fun _ => length_le_depth) stored r.name).mpr ⟨rest, hpath⟩
  obtain ⟨hop, rows, hname, hcell, hrows⟩ := Memory.loadsAlong_loaded hknown
    (fun _ => length_le_depth) hpath (Memory.projected columns stored) stored
  rw [hhop] at hname
  obtain rfl := Option.some.inj hname
  have hmem : r.name ∈ Record.keys (shownRecord store p columns stored) :=
    Record.mem_keys_putAll.mpr (.inl (Record.mem_keys_putAll.mpr (.inr hkey)))
  refine ⟨rows, hrows.imp fun _ _ => And.left, ?_, ?_⟩
  · rw [Record.get?_eq_some_cell hmem, shownRecord, Record.cell_putAll_of_not_mem
      (not_mem_keys_counted hnames (of_hop? hhop).2.1 stored), hcell]
  · rw [← hrows.length_eq]
    exact get?_countKey_putAll_counted hnames hcounts hhop _ stored

end Rows

/-! ### Values -/

/-- What is loaded and counted does not depend on a limit. -/
theorem shownRecord_add_take (store : Memory) (p : Plan) (n : Nat) (columns : List String)
    (row : Record) :
    shownRecord store (p.add (.take n)) columns row = shownRecord store p columns row := by
  have hrelations : (p.add (.take n)).calls.relations = p.calls.relations :=
    Calls.relations_append_take p.calls n
  have hcounts : (p.add (.take n)).calls.counts = p.calls.counts :=
    Calls.counts_append_take p.calls n
  have hknown : knownRelations store.model (p.add (.take n)) = knownRelations store.model p := by
    rw [knownRelations, knownRelations, hrelations]
    rfl
  have hcounted : store.counted (p.add (.take n)) row = store.counted p row := by
    rw [Memory.counted, Memory.counted, hcounts]
    rfl
  rw [shownRecord, shownRecord, hknown, hcounted]
  rfl

/-- What a store gives for a plan is a row of its entity as it is shown. -/
theorem exists_of_isGiven {store : Memory} {p : Plan} {columns : List String} {value : Value}
    (h : store.IsGiven p columns value) :
    ∃ stored ∈ store.rows p.entity.id, value = .object (shownRecord store p columns stored) := by
  have hmem {q : Plan} {rows : List Record} (hrows : rows ⊆ store.selected q)
      (hvalue : value ∈ rows.map (store.shown q columns)) :
      ∃ stored ∈ store.rows q.entity.id, value = .object (shownRecord store q columns stored) := by
    obtain ⟨stored, hstored, rfl⟩ := List.mem_map.mp hvalue
    exact ⟨stored, selection_subset q _ (hrows hstored), shown_eq columns stored⟩
  rcases h with ⟨values, hvalues, hvalue⟩ | ⟨perPage, page, result, hresult, hvalue⟩ | hfirst
  · rw [Memory.get_fst] at hvalues
    obtain rfl := Except.ok.inj hvalues
    exact hmem (limited_subset _ _) hvalue
  · rw [Memory.paginate_fst] at hresult
    obtain rfl := Except.ok.inj hresult
    exact hmem (Page.window_subset _ _ _) hvalue
  · rw [Memory.first_fst] at hfirst
    obtain ⟨first, hhead, rfl⟩ := Option.map_eq_some_iff.mp (Except.ok.inj hfirst)
    obtain ⟨stored, hstored, heq⟩ :=
      hmem (List.Subset.refl _) (List.mem_map_of_mem (List.mem_of_head? hhead))
    exact ⟨stored, hstored, heq.trans (congrArg _ (shownRecord_add_take store p 1 columns stored))⟩

/-- Counts agree with what is loaded.  In every row that a store gives for a plan, each relation
that is loaded and counted is shown with its count: the length of the array, or zero exactly for the
null that stands for no object.  No other relation or count writes under these keys, and what stands
there comes from the rows that are related to the stored one. -/
theorem counts_agree_with_loaded_relations {config : Configuration} {m : Model}
    (hmodel : Model.resolve config = .ok m)
    (hnames : ∀ e ∈ m.entities, ∀ r ∈ e.relations, Naming.IsCamelName r.name)
    {store : Memory} (hstore : store.model = m) {p : Plan} (hp : p.entity ∈ m.entities)
    {columns : List String} {value : Value} (hvalue : store.IsGiven p columns value) :
    (p.entity.relations.flatMap fun r => [r.name, Naming.countKey r.name]).Nodup ∧
    ∃ stored ∈ store.rows p.entity.id, ∃ row, value = .object row ∧
      ∀ r ∈ p.entity.relations, p.Loads m r.name → r.name ∈ p.calls.counts →
        CountAgrees row r ∧
        ∃ target, m.entity? r.target = some target ∧ ShowsRelated store stored row r target := by
  subst hstore
  have hclosed := isClosed_of_resolve hmodel
  have hcamel := hnames p.entity hp
  refine ⟨nodup_relationKeys (hclosed.names p.entity hp) hcamel, ?_⟩
  obtain ⟨stored, hstored, rfl⟩ := exists_of_isGiven hvalue
  refine ⟨stored, hstored, _, rfl, fun r hr hloads hcounts => ?_⟩
  obtain ⟨target, htarget, hhop⟩ := hclosed.exists_hop?_eq hp hr
  have hshows := showsRelated_shownRecord hcamel hhop hloads hcounts columns stored
  exact ⟨hshows.countAgrees, target, htarget, hshows⟩

namespace Catalogue

/-- A store with a writer of two novels and a novel without a writer. -/
def stocked : Memory where
  model := model
  tables := [
    ("novels", ⟨[[("id", .ofInt 1), ("title", .string "Lathe"), ("writer_id", .ofInt 7)],
      [("id", .ofInt 2), ("title", .string "Matter"), ("writer_id", .null)],
      [("id", .ofInt 3), ("title", .string "Harbour"), ("writer_id", .string "7")]], 3⟩),
    ("writers", ⟨[[("id", .ofInt 7), ("name", .string "North")]], 7⟩)]
  clock := ""
  identifiers := fun n => ⟨(Nat.toDigits 16 n).leftpad 32 '0'⟩

/-- The writers with their novels and the writers of these, and the number of the novels. -/
def withNovels : Plan where
  entity := writer
  calls := [.load "novels.writer", .count "novels"]

end Catalogue

open Catalogue in
/-- Both novels of the one writer are shown and counted. -/
theorem counts_agree_with_loaded_relations_catalogue :
    ∃ row, stocked.IsGiven withNovels ["name"] (.object row) ∧
      Record.get? row "novels_count" = some (.ofNat 2) ∧
      ∃ items, Record.get? row "novels" = some (.array items) ∧ items.length = 2 := by
  have hmodel : Model.resolve config = .ok model := rfl
  have hnames : ∀ e ∈ model.entities, ∀ r ∈ e.relations, Naming.IsCamelName r.name := by
    decide +kernel
  have hwriter : withNovels.entity ∈ model.entities := List.mem_cons_self
  have hnovels : ⟨"novels", .toMany, "novels", "id", "writer_id"⟩ ∈ withNovels.entity.relations :=
    List.mem_cons_self
  have hloads : withNovels.Loads model "novels" :=
    ⟨"novels.writer", by decide +kernel, by decide +kernel, by decide +kernel⟩
  have hcounts : "novels" ∈ withNovels.calls.counts := by decide +kernel
  have hvalues := Memory.get_fst withNovels ["name"] stocked
  have hone : (limited withNovels.calls.limit? (stocked.selected withNovels)).length = 1 := by
    decide +kernel
  obtain ⟨first, hfirst⟩ := List.length_eq_one_iff.mp hone
  rw [hfirst] at hvalues
  have hgiven : stocked.IsGiven withNovels ["name"] (stocked.shown withNovels ["name"] first) :=
    .inl ⟨_, hvalues, List.mem_cons_self⟩
  obtain ⟨-, stored, hstored, row, hrow, hshown⟩ :=
    counts_agree_with_loaded_relations hmodel hnames rfl hwriter hgiven
  obtain ⟨⟨count, hcount, items, hitems, hlength⟩, target, htarget, rows, hrows, -, hcounted⟩ :=
    hshown _ hnovels hloads hcounts
  obtain rfl := List.mem_singleton.mp hstored
  obtain rfl : novel = target := Option.some.inj htarget
  have htwo : rows.length = 2 := by
    rw [← hrows.length_eq, Memory.relatedRows, sortRows, List.length_mergeSort]
    decide +kernel
  rw [htwo] at hcounted
  have hsame : (count : Int) = 2 := by
    simpa [Value.ofNat, Value.ofInt] using hcount.symm.trans hcounted
  rw [hrow] at hgiven
  exact ⟨row, hgiven, hcounted, items, hitems, by omega⟩

end EntityService
