import EntityService.Proofs.AnsweredRows
import EntityService.Proofs.Bookshop
import EntityService.Proofs.Suffixes
import EntityService.Proofs.WildcardPatterns

/-!
# Texts that contain another one

What a parameter of a request asks for whose key ends in the suffix for forms.

## Main definitions

* `CellContains` — the text of a cell contains another one

## Main results

* `all_clausesOfParam_like` — the rows that the clauses of the parameter keep
* `like_finds_forms_and_contained_texts` — forms, the search for them, and the parameter

## Design notes

A key with the suffix may be the name of a column as well.  Then the parameter asks for both, and
keeps fewer rows than the text alone would.
-/

namespace EntityService

open EntityService.Http EntityService.Json EntityService.Model EntityService.Query
open EntityService.Store EntityService.Text

/-! ## Rows -/

theorem Query.resolveFilters_append (before after : List (String × String)) (fields : FieldSet) :
    resolveFilters ⟨before ++ after⟩ fields =
      resolveFilters ⟨before⟩ fields ++ resolveFilters ⟨after⟩ fields :=
  List.flatMap_append

/-- The text of a cell that is not null contains another one. -/
def CellContains (cell : Value) (v : String) : Prop :=
  cell.isNull = false ∧ v.toList <:+: cell.plainText.toList

instance (cell : Value) (v : String) : Decidable (CellContains cell v) :=
  inferInstanceAs (Decidable (_ ∧ _))

/-- The forms of cells are those of their texts. -/
theorem cellIsLike_iff_hasForm (cell pattern : Value) :
    cellIsLike cell pattern ↔
      cell.isNull = false ∧ HasForm pattern.plainText.toList cell.plainText.toList := by
  rw [cellIsLike, Bool.and_eq_true, Bool.not_eq_true', isLike_iff_hasForm]

/-- A text between two `%` is the form of the cells that contain it. -/
theorem cellIsLike_iff_contains {v : String} (hv : IsLiteral v.toList) (cell : Value) :
    cellIsLike cell (.string ("%" ++ v ++ "%")) ↔ CellContains cell v := by
  have hpattern : (Value.string ("%" ++ v ++ "%")).plainText.toList =
      '%' :: (v.toList ++ ['%']) := by
    rw [Value.plainText, String.toList_append, String.toList_append]
    rfl
  rw [cellIsLike_iff_hasForm, hpattern, hasForm_contains_iff hv, CellContains]

/-- A row passes a clause. -/
def passesClause (row : Record) (clause : Clause) : Bool := passes row (.ofClause clause)

/-- The rows of a request pass what is pending and what the parameters ask for. -/
theorem passesAll_requestPlanOf (r : Repository) (state : Pending) (row : Record) :
    passesAll (r.requestPlanOf state) row =
      (state.allClauses.all (passesClause row) && r.requestedClauses.all (passesClause row)) := by
  have hfilters : (r.requestPlanOf state).calls.filters =
      (state.allClauses ++ r.requestedClauses).map Call.ofClause := filters_compose ..
  rw [passesAll, hfilters, List.all_map, List.all_append]
  rfl

section Parameter

variable {c v : String} (hc : c ≠ "") (hlower : lowercase c = c) (hv : IsLiteral v.toList)

include hc hlower hv

/-- The clauses of a parameter keep the rows whose cells contain its value, among them only those
that compare equal in the column named by the whole key, if there is one. -/
theorem all_clausesOfParam_like {fields : FieldSet} (hcontains : fields.contains c)
    (row : Record) :
    (clausesOfParam fields (c ++ "_like") v).all (passesClause row) ↔
      (fields.contains (c ++ "_like") → passes row (.compare (c ++ "_like") .eq (.string v))) ∧
        CellContains (Record.cell row c) v := by
  have hrule : ⟨"_like", .compare .like⟩ ∈ SuffixRule.all := by decide
  have hsuffix : suffixClause? fields (c ++ "_like") v =
      some (.comparison c .like (.string ("%" ++ v ++ "%"))) :=
    suffixClause?_eq_some (resolveSuffix?_append hrule hc hlower rfl) hcontains v
  have hpass : passesClause row (.comparison c .like (.string ("%" ++ v ++ "%"))) ↔
      CellContains (Record.cell row c) v := cellIsLike_iff_contains hv _
  rw [clausesOfParam, hsuffix, List.all_append, Bool.and_eq_true, exactClause?]
  refine and_congr ?_ (by simpa using hpass)
  split
  · next hexact =>
      rw [hexact]
      simp [passesClause, Call.ofClause]
  · next hexact => simp [hexact]

/-- One parameter more keeps the rows that pass its clauses. -/
theorem passesAll_like_iff {r : Repository} {state : Pending}
    {before after : List (String × String)} {row : Record}
    (hcontains : r.entity.filterable.contains c) :
    passesAll ((r.withParams ⟨before ++ (c ++ "_like", v) :: after⟩).requestPlanOf state) row ↔
      passesAll ((r.withParams ⟨before ++ after⟩).requestPlanOf state) row ∧
        (r.entity.filterable.contains (c ++ "_like") →
          passes row (.compare (c ++ "_like") .eq (.string v))) ∧
        CellContains (Record.cell row c) v := by
  have hclauses : (r.withParams ⟨before ++ (c ++ "_like", v) :: after⟩).requestedClauses =
      resolveFilters ⟨before⟩ r.entity.filterable ++
        (clausesOfParam r.entity.filterable (c ++ "_like") v ++
          resolveFilters ⟨after⟩ r.entity.filterable) := resolveFilters_append ..
  have hothers : (r.withParams ⟨before ++ after⟩).requestedClauses =
      resolveFilters ⟨before⟩ r.entity.filterable ++ resolveFilters ⟨after⟩ r.entity.filterable :=
    resolveFilters_append ..
  rw [passesAll_requestPlanOf, passesAll_requestPlanOf, hclauses, hothers,
    ← all_clausesOfParam_like hc hlower hv hcontains row]
  simp only [List.all_append, Bool.and_eq_true]
  constructor
  · rintro ⟨hstate, hbefore, hparam, hafter⟩
    exact ⟨⟨hstate, hbefore, hafter⟩, hparam⟩
  · rintro ⟨⟨hstate, hbefore, hafter⟩, hparam⟩
    exact ⟨hstate, hbefore, hparam, hafter⟩

end Parameter

/-- A cell is found to have the form of a pattern when it is not null and its text has the form, and
that is when the pattern, written in the language of patterns, denotes something that occurs in the
text.  A parameter with the suffix for forms keeps the rows whose cells contain its value, if that
has no placeholders; the column is one that rows may be filtered by, has a name and is in lower
case.  When rows may be filtered by the whole key as well, they are kept only if they compare equal
in that column. -/
theorem like_finds_forms_and_contained_texts :
    (∀ cell pattern : Value,
      (cellIsLike cell pattern ↔
        cell.isNull = false ∧ HasForm pattern.plainText.toList cell.plainText.toList) ∧
      ∃ p, Pattern.Denotes (Pattern.wildcardText pattern.plainText.toList) p ∧
        (cellIsLike cell pattern ↔ cell.isNull = false ∧ p.occursIn cell.plainText)) ∧
    ∀ (r : Repository) (state : Pending) (before after : List (String × String)) (c v : String)
      (row : Record), r.entity.filterable.contains c → c ≠ "" → lowercase c = c →
      IsLiteral v.toList →
      (passesAll ((r.withParams ⟨before ++ (c ++ "_like", v) :: after⟩).requestPlanOf state) row ↔
        passesAll ((r.withParams ⟨before ++ after⟩).requestPlanOf state) row ∧
          (r.entity.filterable.contains (c ++ "_like") →
            passes row (.compare (c ++ "_like") .eq (.string v))) ∧
          CellContains (Record.cell row c) v) := by
  refine ⟨fun cell pattern => ⟨cellIsLike_iff_hasForm cell pattern, _,
    Pattern.denotes_wildcardText _, ?_⟩, ?_⟩
  · rw [cellIsLike_iff_hasForm, Pattern.occursIn_wildcardPattern]
  · intro r state before after c v row hcontains hc hlower hv
    exact passesAll_like_iff hc hlower hv hcontains

/-- Books by a part of their titles, and a text of two lines with a form. -/
theorem like_finds_forms_and_contained_texts_books :
    let r : Repository := .of Bookshop.model Bookshop.books
    let plan : Plan := (r.withParams ⟨[("sort", "id:asc"), ("title_like", "att")]⟩).searchPlan
    cellIsLike (.string "a.\nb") (.string "a_%") ∧
      passesAll plan (Bookshop.book 3 2 "Matter") ∧
      ¬passesAll plan (Bookshop.book 2 1 "Lathe") := by
  intro r plan
  obtain ⟨hforms, hparam⟩ := like_finds_forms_and_contained_texts
  have hkeeps (row : Record) := hparam r r.pending [("sort", "id:asc")] [] "title" "att" row
    (by decide) (by decide) (by decide +kernel) (by decide)
  refine ⟨(hforms (.string "a.\nb") (.string "a_%")).1.mpr ⟨rfl, ?_⟩, ?_, fun hpasses => ?_⟩
  · exact .char (by decide) (by decide) (.one '.' (.any ['\n', 'b'] .nil))
  · exact (hkeeps _).mpr ⟨by decide +kernel, by decide +kernel, by decide⟩
  · have hcontains := ((hkeeps _).mp hpasses).2.2
    revert hcontains
    decide

/-! ### Captions -/

namespace Captions

/-- Notes with a title and a text for what the title is like.  Rows may also be filtered by a column
without a name. -/
def notes : Config.EntityDeclaration where
  id := "notes"
  schema := "public"
  table := "notes"
  pathSegment := "notes"
  primaryKey := "id"
  createdAt := "created_at"
  updatedAt := "updated_at"
  columns := [⟨"id", .simple "bigserial", true, none⟩, ⟨"title", .simple "text", true, none⟩,
    ⟨"title_like", .simple "text", true, none⟩]
  filterableFields := ["title", "title_like", ""]
  activeFlag := none
  defaultSort := none
  aggregates := []
  operations := ["create", "read"]
  sensitiveColumns := []
  validation := []
  pageSize := 25

/-- The entity of notes. -/
def note : Entity := Model.entityOf [] notes

/-- A service for notes. -/
def service : Service := ⟨⟨[note]⟩, true⟩

/-- A note with a title. -/
def moon : Record := [("id", .ofInt 1), ("title", .string "moon"), ("title_like", .string "sun")]

/-- A store with one note. -/
def store : Memory where
  model := service.model
  tables := [("notes", ⟨[moon], 1⟩)]
  clock := ""
  identifiers := fun n => ⟨(Nat.toDigits 16 n).leftpad 32 '0'⟩

/-- The text of the list of notes that a request finds. -/
def found (query : String) : Option String :=
  (service.answer ⟨"GET", .read ("/api/v1/notes?" ++ query), none, ""⟩ store).1.data?.map Value.text

end Captions

open Captions in
/-- A note whose title contains the value of the parameter is not found, since the whole key is a
column as well.  Without a column before the suffix the parameter is no filter, and a note is found
that has no text there. -/
theorem contained_text_not_found_captions :
    Model.resolve ⟨[notes], []⟩ = .ok service.model ∧
      IsLiteral "oo".toList ∧
      (note.filterable.contains "title" ∧ lowercase "title" = "title" ∧
        CellContains (Record.cell moon "title") "oo" ∧ found "title_like=oo" = some "[]") ∧
      note.filterable.contains "" ∧ lowercase "" = "" ∧
        ¬CellContains (Record.cell moon "") "oo" ∧ found "_like=oo" = found "" ∧
        found "" ≠ some "[]" := by
  refine ⟨rfl, by decide, ?_⟩
  decide +kernel

end EntityService
