import EntityService.Proofs.Composition
import EntityService.Proofs.Resolution

/-!
# Data that are patched

Data for a new row stay data for a new row when data for a change are put over them.

## Main results

* `ruleViolation?_eq_none_iff` — when data break no part of the rule of a column
* `admits_putAll` — data for a new row, with data for a change over them, are data for a new row
* `admits_of_subset` — some of the data for a new row are data for a change
* `admits_closed_under_patches` — both, and the same for many changes one after the other

## Design notes

A rule looks at the value of its column alone, so data that are put together break it only if the
data break it that the value comes from.  What a new row has to give is given before the change, and
no change puts a null over it.  For this, names have to tell the columns apart: a null is refused
for the first column that has its name.
-/

namespace EntityService

open EntityService.Config EntityService.Json EntityService.Model EntityService.Validation

/-- Data break no part of a rule if the value of its column breaks none, and there is a value when
data for a new row have to give one. -/
theorem Validation.ruleViolation?_eq_none_iff {mode : Mode} {data : Record} {column : String}
    {rule : Rule} :
    ruleViolation? mode data column rule = none ↔
      (∀ v ∈ Record.get? data column, valueViolation? column v rule = none) ∧
        (mode = .create → rule.required = some true → (Record.get? data column).isSome) := by
  unfold ruleViolation?
  cases Record.get? data column with
  | none => simp
  | some v => simp

namespace Model.Entity

variable {e : Entity} {data patch : Record}

/-- Some of the data for a new row are data for a change. -/
theorem admits_of_subset (hdata : Record.Ascending data) (hsubset : patch ⊆ data)
    (hadmits : e.admits .create data) : e.admits .update patch := by
  obtain ⟨-, hrules, hnulled⟩ := admits_iff.mp hadmits
  refine admits_iff.mpr ⟨nofun, ?_, fun member hmember => hnulled member (hsubset hmember)⟩
  intro r hr
  obtain ⟨hvalue, -⟩ := ruleViolation?_eq_none_iff.mp (hrules r hr)
  refine ruleViolation?_eq_none_iff.mpr ⟨fun v hv => hvalue v ?_, nofun⟩
  exact hdata.get?_of_mem (hsubset (Record.mem_of_get? hv))

section Patches

variable (hdistinct : ∀ c ∈ e.columns, ∀ d ∈ e.columns, c.name = d.name → c = d)

include hdistinct

/-- A change puts no null over a value that a new row has to give. -/
theorem isNull_of_mem_patch (hadmits : e.admits .update patch) {column : String}
    (hcolumn : column ∈ requiredColumns e) {v : Value} (h : (column, v) ∈ patch) :
    v.isNull = false := by
  obtain ⟨-, -, hnulled⟩ := admits_iff.mp hadmits
  obtain ⟨c, hc, rfl⟩ := List.mem_map.mp hcolumn
  obtain ⟨hmem, htest⟩ := List.mem_filter.mp hc
  have hnullable : c.nullable = false := by
    simp only [Bool.and_eq_true, Bool.not_eq_true'] at htest
    exact htest.1.1
  exact hnulled _ h c (column?_of_mem hdistinct hmem) hnullable

/-- Data for a new row, with data for a change put over them, are data for a new row. -/
theorem admits_putAll (hpatch : Record.Ascending patch) (hdata : e.admits .create data)
    (hchange : e.admits .update patch) : e.admits .create (Record.putAll data patch) := by
  obtain ⟨hrequired, hrules, hnulled⟩ := admits_iff.mp hdata
  obtain ⟨-, hrules', hnulled'⟩ := admits_iff.mp hchange
  refine admits_iff.mpr ⟨?_, ?_, ?_⟩
  · intro _ column hcolumn
    rcases Record.cell_putAll data patch column with hkept | hput
    · rw [hkept]
      exact hrequired rfl column hcolumn
    · exact isNull_of_mem_patch hdistinct hchange hcolumn hput
  · intro r hr
    obtain ⟨hvalue, hgiven⟩ := ruleViolation?_eq_none_iff.mp (hrules r hr)
    obtain ⟨hvalue', -⟩ := ruleViolation?_eq_none_iff.mp (hrules' r hr)
    rw [ruleViolation?_eq_none_iff, hpatch.get?_putAll]
    constructor
    · intro v hv
      rcases Option.or_eq_some_iff.mp hv with hput | ⟨-, hkept⟩
      · exact hvalue' v hput
      · exact hvalue v hkept
    · intro hcreate hrule
      rw [Option.isSome_or, hgiven hcreate hrule, Bool.or_true]
  · intro member hmember
    rcases Record.mem_putAll hmember with hkept | hput
    · exact hnulled member hkept
    · exact hnulled' member hput

theorem admits_foldl_putAll {patches : List Record}
    (hpatches : ∀ patch ∈ patches, Record.Ascending patch ∧ e.admits .update patch)
    (hdata : e.admits .create data) : e.admits .create (patches.foldl Record.putAll data) := by
  induction patches generalizing data with
  | nil => exact hdata
  | cons patch rest ih =>
      obtain ⟨⟨hascending, hchange⟩, hrest⟩ := List.forall_mem_cons.mp hpatches
      exact ih hrest (admits_putAll hdistinct hascending hdata hchange)

end Patches

/-- What the check lets through for the entity of a declaration with different names of columns is
closed under patches.  Data for a new row with data for a change put over them are data for a new
row, some of the data for a new row are data for a change, and data for a new row stay so under any
changes one after the other. -/
theorem admits_closed_under_patches {relations : List RelationDeclaration} {d : EntityDeclaration}
    (hnames : (d.columns.map (·.name)).Nodup) :
    let e := Model.entityOf relations d
    (∀ data patch : Record, Record.Ascending patch → e.admits .create data →
        e.admits .update patch → e.admits .create (Record.putAll data patch)) ∧
      (∀ data part : Record, Record.Ascending data → part ⊆ data → e.admits .create data →
        e.admits .update part) ∧
      ∀ (data : Record) (patches : List Record),
        (∀ patch ∈ patches, Record.Ascending patch ∧ e.admits .update patch) →
          e.admits .create data → e.admits .create (patches.foldl Record.putAll data) := by
  intro e
  have hdistinct : ∀ c ∈ e.columns, ∀ d ∈ e.columns, c.name = d.name → c = d :=
    eq_of_mem_columnsOf hnames
  refine ⟨?_, ?_, ?_⟩
  · exact fun data patch => admits_putAll hdistinct
  · exact fun data part => admits_of_subset
  · exact fun data patches => admits_foldl_putAll hdistinct

/-! ### Members of a club -/

namespace Club

/-- Members with a name that has to be given, a level that is one of two, and an address that has to
be one when it is there. -/
def members : EntityDeclaration where
  id := "members"
  schema := "public"
  table := "members"
  pathSegment := "members"
  primaryKey := "id"
  createdAt := "created_at"
  updatedAt := "updated_at"
  columns := [⟨"id", .simple "bigserial", false, none⟩, ⟨"name", .simple "text", false, none⟩,
    ⟨"level", .simple "text", true, none⟩, ⟨"address", .simple "text", true, none⟩]
  filterableFields := []
  activeFlag := none
  defaultSort := none
  aggregates := []
  operations := ["create", "read", "update", "delete"]
  sensitiveColumns := []
  validation := [("address", ⟨none, some "email", none, none, none, none, none, none⟩),
    ("level", ⟨some true, none, none, none, none, some [.string "full", .string "guest"], none,
      none⟩)]
  pageSize := 25

/-- The entity of members. -/
def member : Entity := Model.entityOf [] members

end Club

open Club in
/-- A guest who gets an address, becomes a full member and loses the address again is a member with
all that a new one has to give, although the changes are not. -/
theorem admits_closed_under_patches_members :
    let data : Record := [("level", .string "guest"), ("name", .string "North")]
    let patches : List Record := [[("address", .string "north@example.org")],
      [("level", .string "full"), ("name", .string "North W.")], [("address", .null)]]
    (∀ patch ∈ patches, Record.Ascending patch ∧ member.admits .update patch) ∧
      member.admits .create (patches.foldl Record.putAll data) ∧
      member.admits .update [("name", .string "North")] ∧
      ¬member.admits .create [("name", .string "North")] ∧
      ¬member.admits .update [("level", .null)] := by
  intro data patches
  have hnames : (members.columns.map (·.name)).Nodup := by decide
  have hdata : member.admits .create data := by decide +kernel
  have hpatches : ∀ patch ∈ patches, Record.Ascending patch ∧ member.admits .update patch := by
    unfold Record.Ascending
    decide +kernel
  have hascending : Record.Ascending data := by
    unfold Record.Ascending
    decide +kernel
  obtain ⟨-, hpart, hfold⟩ := @admits_closed_under_patches [] members hnames
  refine ⟨hpatches, hfold data patches hpatches hdata, ?_, by decide +kernel, by decide +kernel⟩
  exact hpart data _ hascending (List.subset_cons_self _ _) hdata

end Model.Entity

end EntityService
