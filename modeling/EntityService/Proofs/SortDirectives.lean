import EntityService.Query.SortKey
import Mathlib.Data.List.Forall2

/-!
# Sort directives are read back

The sorts that the entries of a directive spell are what it is resolved to, in their order, whatever
white space stands in the entries and whatever else stands between them.

## Main definitions

* `SortKey.IsSpellable` — a column and a direction that an entry can spell
* `SortKey.SpelledBy` — an entry spells a sort, with white space around column and direction
* `Spell` — the entries of a directive spell sorts, among entries that are none
* `SortKey.NamedBy` — a sort is what stands before and after the colon of an entry

## Main results

* `SortKey.ofEntry?_cases` — an entry names a sort if and only if it has exactly one colon
* `resolveSorts_of_spell` — entries that spell sorts are resolved to them
* `sort_directives_are_read_back` — the same for plain entries, and what any directive resolves to

## Design notes

A directive is cut apart at its commas before an entry is cut at its colons, so each entry is read
on its own: the induction on the entries needs no more than what one entry names.
-/

namespace EntityService.Query

open EntityService.Text

/-! ### Entries -/

namespace SortKey

/-- A text that an entry can hold as its column or direction: no separators in it, and no white
space around it. -/
structure IsPart (part : String) : Prop where
  comma : ',' ∉ part.toList
  colon : ':' ∉ part.toList
  trimmed : trim part = part

instance (part : String) : Decidable (IsPart part) :=
  decidable_of_iff (',' ∉ part.toList ∧ ':' ∉ part.toList ∧ trim part = part)
    ⟨fun ⟨comma, colon, trimmed⟩ => ⟨comma, colon, trimmed⟩,
      fun h => ⟨h.comma, h.colon, h.trimmed⟩⟩

/-- A sort that an entry can spell. -/
structure IsSpellable (s : SortKey) : Prop where
  column : IsPart s.column
  direction : IsPart s.direction

instance (s : SortKey) : Decidable s.IsSpellable :=
  decidable_of_iff (IsPart s.column ∧ IsPart s.direction)
    ⟨fun ⟨column, direction⟩ => ⟨column, direction⟩, fun h => ⟨h.column, h.direction⟩⟩

/-- A text is a part with white space around it. -/
def IsPadded (part text : String) : Prop :=
  ∃ before after, isBlankText before ∧ isBlankText after ∧ text = before ++ part ++ after

/-- An entry spells a sort: its column and its direction around a colon, each with white space
around it. -/
def SpelledBy (s : SortKey) (entry : String) : Prop :=
  ∃ column direction, IsPadded s.column column ∧ IsPadded s.direction direction ∧
    entry = column ++ ":" ++ direction

/-- A sort is what stands before and after a colon of an entry, without the white space around
it. -/
def NamedBy (entry : String) (s : SortKey) : Prop :=
  ∃ column direction, entry = column ++ ":" ++ direction ∧ s = ⟨trim column, trim direction⟩

/-- White space around a part adds no separators and is removed again. -/
theorem IsPart.of_isPadded {part text : String} (h : IsPart part) (hpadded : IsPadded part text) :
    ',' ∉ text.toList ∧ ':' ∉ text.toList ∧ trim text = part := by
  obtain ⟨before, after, hbefore, hafter, rfl⟩ := hpadded
  have hnone {c : Char} (hpart : c ∉ part.toList) (hblank : isBlank c = false) :
      c ∉ (before ++ part ++ after).toList := by
    have hnot {s : String} (hs : isBlankText s) : c ∉ s.toList := fun hc =>
      Bool.eq_false_iff.mp hblank (List.all_eq_true.mp hs c hc)
    rw [String.toList_append, String.toList_append]
    simp [hnot hbefore, hpart, hnot hafter]
  exact ⟨hnone h.comma rfl, hnone h.colon rfl, (trim_append hbefore hafter part).trans h.trimmed⟩

/-- The parts around one colon are the pieces of an entry. -/
theorem ofEntry?_colon {column direction : String} (hcolumn : ':' ∉ column.toList)
    (hdirection : ':' ∉ direction.toList) :
    ofEntry? (column ++ ":" ++ direction) = some ⟨trim column, trim direction⟩ := by
  have hpieces : pieces ':' (column ++ ":" ++ direction) = [column, direction] := by
    have happend := pieces_append ':' column direction
    rwa [pieces_of_not_mem hcolumn, pieces_of_not_mem hdirection] at happend
  unfold ofEntry?
  rw [hpieces]

/-- An entry names a sort if and only if it has exactly one colon. -/
theorem ofEntry?_cases (entry : String) :
    (entry.toList.count ':' = 1 ∧ ∃ s, ofEntry? entry = some s ∧ NamedBy entry s) ∨
      (entry.toList.count ':' ≠ 1 ∧ ofEntry? entry = none) := by
  have hlength := length_pieces ':' entry
  unfold ofEntry?
  split
  · next column direction hpieces =>
      rw [hpieces] at hlength
      refine .inl ⟨Nat.succ.inj hlength.symm, _, rfl, column, direction, ?_, rfl⟩
      have hjoined := joined_pieces ':' entry
      rw [hpieces] at hjoined
      rw [← hjoined]
      rfl
  · next hother =>
      refine .inr ⟨fun hone => ?_, rfl⟩
      rw [hone] at hlength
      obtain ⟨column, direction, hpieces⟩ := List.length_eq_two.mp hlength
      exact hother column direction hpieces

/-- An entry that spells a sort names it. -/
theorem IsSpellable.ofEntry?_eq {s : SortKey} (h : s.IsSpellable) {entry : String}
    (hentry : s.SpelledBy entry) : ofEntry? entry = some s ∧ ',' ∉ entry.toList := by
  obtain ⟨column, direction, hcolumn, hdirection, rfl⟩ := hentry
  obtain ⟨hcomma, hcolon, htrim⟩ := h.column.of_isPadded hcolumn
  obtain ⟨hcomma', hcolon', htrim'⟩ := h.direction.of_isPadded hdirection
  refine ⟨?_, ?_⟩
  · rw [ofEntry?_colon hcolon hcolon', htrim, htrim']
  · rw [String.toList_append, String.toList_append]
    simp [hcomma, hcomma']

/-- A column and a direction around a colon spell the sort, without any white space. -/
theorem spelledBy_plain (s : SortKey) : s.SpelledBy (s.column ++ ":" ++ s.direction) := by
  have hplain (part : String) : IsPadded part part := ⟨"", "", rfl, rfl, by simp⟩
  exact ⟨_, _, hplain s.column, hplain s.direction, rfl⟩

end SortKey

/-! ### Directives -/

/-- The entries of a directive spell sorts one after the other.  Any other entries between them have
no comma, and no colon or several. -/
inductive Spell : List String → List SortKey → Prop where
  | nil : Spell [] []
  | sort {entry : String} {s : SortKey} {entries : List String} {sorts : List SortKey}
      (hentry : s.SpelledBy entry) (h : Spell entries sorts) : Spell (entry :: entries) (s :: sorts)
  | other {entry : String} {entries : List String} {sorts : List SortKey}
      (hcomma : ',' ∉ entry.toList) (hcolon : entry.toList.count ':' ≠ 1)
      (h : Spell entries sorts) : Spell (entry :: entries) sorts

theorem spell_plain (sorts : List SortKey) :
    Spell (sorts.map fun s => s.column ++ ":" ++ s.direction) sorts := by
  induction sorts with
  | nil => exact .nil
  | cons s sorts ih => exact .sort s.spelledBy_plain ih

section Spell

variable {entries : List String} {sorts : List SortKey} (h : Spell entries sorts)
  (hsorts : ∀ s ∈ sorts, s.IsSpellable)

include h hsorts

theorem Spell.comma_not_mem : ∀ entry ∈ entries, ',' ∉ entry.toList := by
  induction h with
  | nil => exact nofun
  | sort hentry _ ih =>
      obtain ⟨hs, hrest⟩ := List.forall_mem_cons.mp hsorts
      exact List.forall_mem_cons.mpr ⟨(hs.ofEntry?_eq hentry).2, ih hrest⟩
  | other hcomma _ _ ih => exact List.forall_mem_cons.mpr ⟨hcomma, ih hsorts⟩

theorem Spell.filterMap_ofEntry? : entries.filterMap SortKey.ofEntry? = sorts := by
  induction h with
  | nil => rfl
  | sort hentry _ ih =>
      obtain ⟨hs, hrest⟩ := List.forall_mem_cons.mp hsorts
      rw [List.filterMap_cons_some (hs.ofEntry?_eq hentry).1, ih hrest]
  | @other entry _ _ _ hcolon _ ih =>
      have hnone := (SortKey.ofEntry?_cases entry).resolve_left fun hone => hcolon hone.1
      rw [List.filterMap_cons_none hnone.2, ih hsorts]

/-- Entries that spell sorts are resolved to them. -/
theorem resolveSorts_of_spell (hne : sorts ≠ []) (default : SortKey) :
    resolveSorts (some (joined "," entries)) default = sorts := by
  have hentries : entries ≠ [] := by
    rintro rfl
    cases h
    exact hne rfl
  have hpieces : pieces ',' (joined "," entries) = entries :=
    pieces_joined (h.comma_not_mem hsorts) hentries
  have hnamed : namedSorts (some (joined "," entries)) = sorts := by
    rw [namedSorts, Option.getD_some, hpieces, h.filterMap_ofEntry? hsorts]
  obtain ⟨s, rest, rfl⟩ := List.exists_cons_of_ne_nil hne
  rw [resolveSorts, hnamed]

end Spell

/-- The entries of a directive that have exactly one colon. -/
def sortEntries (directive : Option String) : List String :=
  (pieces ',' (directive.getD "")).filter fun entry => entry.toList.count ':' == 1

/-- A directive names one sort for each of its entries with exactly one colon. -/
theorem forall₂_namedBy (directive : Option String) :
    List.Forall₂ SortKey.NamedBy (sortEntries directive) (namedSorts directive) := by
  unfold sortEntries namedSorts
  induction pieces ',' (directive.getD "") with
  | nil => exact .nil
  | cons entry entries ih =>
      rcases SortKey.ofEntry?_cases entry with ⟨hone, s, hs, hnamed⟩ | ⟨hother, hnone⟩
      · rw [List.filter_cons, if_pos (beq_iff_eq.mpr hone), List.filterMap_cons_some hs]
        exact .cons hnamed ih
      · rw [List.filter_cons, if_neg (mt beq_iff_eq.mp hother), List.filterMap_cons_none hnone]
        exact ih

/-- A directive is resolved to the sorts of its entries, or to the default when it has none. -/
theorem resolveSorts_cases (directive : Option String) (default : SortKey) :
    (sortEntries directive ≠ [] ∧
        List.Forall₂ SortKey.NamedBy (sortEntries directive) (resolveSorts directive default)) ∨
      (sortEntries directive = [] ∧ resolveSorts directive default = [default]) := by
  have hnamed := forall₂_namedBy directive
  unfold resolveSorts
  split
  · next hnone =>
      rw [hnone, List.forall₂_nil_right_iff] at hnamed
      exact .inr ⟨hnamed, rfl⟩
  · next hsome =>
      refine .inl ⟨fun hempty => ?_, hnamed⟩
      rw [hempty, List.forall₂_nil_left_iff] at hnamed
      exact hsome hnamed

/-- Sorts without separators and outer white space are what their entries are resolved to, also with
white space around columns and directions and with entries between them that have no comma and not
exactly one colon.  Any directive is resolved to one sort for each of its entries with exactly one
colon, or to the default alone when it has no such entry, and so never to nothing. -/
theorem sort_directives_are_read_back (default : SortKey) :
    (∀ sorts, sorts ≠ [] → (∀ s ∈ sorts, SortKey.IsSpellable s) →
      resolveSorts (some (joined "," (sorts.map fun s => s.column ++ ":" ++ s.direction)))
          default = sorts ∧
        ∀ entries, Spell entries sorts →
          resolveSorts (some (joined "," entries)) default = sorts) ∧
      ∀ directive,
        ((sortEntries directive ≠ [] ∧
            List.Forall₂ SortKey.NamedBy (sortEntries directive)
              (resolveSorts directive default)) ∨
          (sortEntries directive = [] ∧ resolveSorts directive default = [default])) ∧
        resolveSorts directive default ≠ [] := by
  refine ⟨fun sorts hne hsorts => ⟨?_, fun entries h => ?_⟩, fun directive => ⟨?_, ?_⟩⟩
  · exact resolveSorts_of_spell (spell_plain sorts) hsorts hne default
  · exact resolveSorts_of_spell h hsorts hne default
  · exact resolveSorts_cases directive default
  · rcases resolveSorts_cases directive default with ⟨hentries, hnamed⟩ | ⟨-, hdefault⟩
    · intro hnone
      rw [hnone, List.forall₂_nil_right_iff] at hnamed
      exact hentries hnamed
    · rw [hdefault]
      exact List.cons_ne_nil _ _

/-- Of two sorts with white space around their parts, an entry with two colons and an empty entry
between them; and of a directive without sorts. -/
theorem sort_directives_are_read_back_books :
    let default : SortKey := ⟨"id", "desc"⟩
    let sorts : List SortKey := [⟨"title", "asc"⟩, ⟨"pages", "sideways"⟩]
    (∀ s ∈ sorts, SortKey.IsSpellable s) ∧
      resolveSorts (some "title:asc,pages:sideways") default = sorts ∧
      resolveSorts (some " title : asc,a:b:c,,pages:\tsideways ") default = sorts ∧
      resolveSorts (some "title, a:b:c") default = [default] := by
  intro default sorts
  have hsorts : ∀ s ∈ sorts, SortKey.IsSpellable s := by decide
  obtain ⟨hspelled, hany⟩ := sort_directives_are_read_back default
  obtain ⟨hplain, hpadded⟩ := hspelled sorts (List.cons_ne_nil _ _) hsorts
  have hspell : Spell [" title : asc", "a:b:c", "", "pages:\tsideways "] sorts := by
    refine .sort ⟨" title ", " asc", ?_, ?_, rfl⟩ (.other (by decide) (by decide)
      (.other (by decide) (by decide) (.sort ⟨"pages", "\tsideways ", ?_, ?_, rfl⟩ .nil)))
    · exact ⟨" ", " ", rfl, rfl, rfl⟩
    · exact ⟨" ", "", rfl, rfl, rfl⟩
    · exact ⟨"", "", rfl, rfl, rfl⟩
    · exact ⟨"\t", " ", rfl, rfl, rfl⟩
  refine ⟨hsorts, hplain, hpadded _ hspell, ?_⟩
  have hnone : sortEntries (some "title, a:b:c") = [] := by decide
  exact ((hany (some "title, a:b:c")).1.resolve_left fun h => h.1 hnone).2

end EntityService.Query
