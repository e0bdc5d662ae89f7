import EntityService.Proofs.CamelCase
import EntityService.Query.Call
import Mathlib.Data.List.Basic

/-!
# What a request asks to load and to count

The relations and counts of two directives are exactly what their entries stand for, each once and
in the order in which they are first mentioned, and a request that names them as they were resolved
is resolved to them again.

## Main definitions

* `IsFirstMentions` — the members of a list, each once, in the order of their first occurrences
* `IsPlainEntry` — a text that is an entry of a directive as it stands
* `Settles` — the reading of an entry leads to a plain entry that is read as itself

## Main results

* `isFirstMentions_eraseDups` — a list without its repetitions
* `settles_path`, `settles_count` — the readings of the two directives settle
* `inclusion_is_exact_and_idempotent` — resolving is exact and idempotent

## Design notes

A path that is not known is kept as it is spelled, so what is resolved again is in part in the
inside spelling and in part as the request had it.  It is read as itself all the same: a known path
is in the inside spelling, and one that is not known is not known the second time either.
-/

namespace EntityService.Query

open EntityService.Naming EntityService.Text

/-! ### First mentions -/

/-- `names` are the members of `mentions`, each once and in the order in which they are first
mentioned. -/
structure IsFirstMentions (names mentions : List String) : Prop where
  nodup : names.Nodup
  mem_iff : ∀ name, name ∈ names ↔ name ∈ mentions
  ordered : names.Pairwise fun a b => mentions.idxOf a < mentions.idxOf b

/-- The first mention comes before those of the names that are mentioned after it. -/
theorem IsFirstMentions.cons {names mentions : List String} {name : String}
    (h : IsFirstMentions names mentions) :
    IsFirstMentions (name :: names.filter fun other => !other == name) (name :: mentions) := by
  have hother : ∀ {other}, (other ∈ names.filter fun other => !other == name) →
      other ∈ names ∧ other ≠ name := by
    intro other hmem
    rw [List.mem_filter] at hmem
    exact ⟨hmem.1, by simpa using hmem.2⟩
  constructor
  · rw [List.nodup_cons]
    exact ⟨fun hmem => (hother hmem).2 rfl, h.nodup.filter _⟩
  · intro other
    rw [List.mem_cons, List.mem_cons, List.mem_filter, h.mem_iff]
    by_cases heq : other = name <;> simp [heq]
  · have hindex : ∀ {other}, (other ∈ names.filter fun other => !other == name) →
        (name :: mentions).idxOf other = mentions.idxOf other + 1 := by
      intro other hmem
      exact List.idxOf_cons_ne _ (hother hmem).2.symm
    rw [List.pairwise_cons]
    constructor
    · intro other hmem
      rw [List.idxOf_cons_self, hindex hmem]
      exact Nat.succ_pos _
    · refine (h.ordered.filter _).imp_of_mem fun ha hb hlt => ?_
      rw [hindex ha, hindex hb]
      exact Nat.succ_lt_succ hlt

/-- A list without its repetitions. -/
theorem isFirstMentions_eraseDups (mentions : List String) :
    IsFirstMentions mentions.eraseDups mentions := by
  induction mentions with
  | nil => exact ⟨List.nodup_nil, fun _ => Iff.rfl, List.Pairwise.nil⟩
  | cons name rest ih =>
      rw [List.eraseDups_cons, ← filter_eraseDups]
      exact ih.cons

/-! ### Entries -/

/-- The entries of a directive are what stands between its commas and is not blank, without the
white space around it. -/
theorem directiveEntries_eq (directive : Option String) :
    directiveEntries directive =
      ((pieces ',' (directive.getD "")).filter fun piece => !isBlankText piece).map trim := by
  rw [directiveEntries, List.filter_map]
  refine congrArg (List.map trim) (List.filter_congr fun piece _ => ?_)
  cases hblank : isBlankText piece with
  | true => simp [trim_eq_empty_iff.mpr hblank]
  | false => simp [mt trim_eq_empty_iff.mp, hblank]

/-- A text that is an entry of a directive as it stands. -/
structure IsPlainEntry (entry : String) : Prop where
  comma : ',' ∉ entry.toList
  trimmed : trim entry = entry
  nonempty : entry ≠ ""

theorem isPlainEntry_of_mem {directive : Option String} {entry : String}
    (h : entry ∈ directiveEntries directive) : IsPlainEntry entry := by
  obtain ⟨hmem, hne⟩ := List.mem_filter.mp h
  obtain ⟨piece, hpiece, rfl⟩ := List.mem_map.mp hmem
  exact ⟨fun hc => not_mem_of_mem_pieces hpiece (mem_of_mem_trim hc), trim_trim piece,
    of_decide_eq_true hne⟩

/-- The characters of an entry are characters of the directive. -/
theorem isSpaced_of_mem_directiveEntries {directive : Option String} {entry : String}
    (hdirective : ∀ s ∈ directive, IsSpaced s) (h : entry ∈ directiveEntries directive) :
    IsSpaced entry := by
  obtain ⟨piece, hpiece, rfl⟩ := List.mem_map.mp (List.mem_filter.mp h).1
  cases directive with
  | none => exact IsSpaced.mono (by decide : IsSpaced "") fun c hc =>
      mem_of_mem_pieces hpiece (mem_of_mem_trim hc)
  | some s => exact (hdirective s rfl).mono fun c hc =>
      mem_of_mem_pieces hpiece (mem_of_mem_trim hc)

/-- Plain entries are the entries of the directive that they are joined to. -/
theorem directiveEntries_joined {entries : List String}
    (h : ∀ entry ∈ entries, IsPlainEntry entry) :
    directiveEntries (some (joined "," entries)) = entries := by
  rcases eq_or_ne entries [] with rfl | hne
  · rfl
  · have hpieces : pieces ',' (joined "," entries) = entries :=
      pieces_joined (fun entry hentry => (h entry hentry).comma) hne
    have htrim : entries.map trim = entries :=
      (List.map_congr_left fun entry hentry => (h entry hentry).trimmed).trans (List.map_id _)
    rw [directiveEntries, Option.getD_some, hpieces, htrim, List.filter_eq_self]
    exact fun entry hentry => decide_eq_true (h entry hentry).nonempty

/-! ### Readings that settle -/

/-- What an entry is read as is a plain entry, which is read as itself. -/
def Settles (read : String → Option String) : Prop :=
  ∀ entry name, IsSpaced entry → IsPlainEntry entry → read entry = some name →
    IsPlainEntry name ∧ read name = some name

/-- When a reading settles, what it has read is read again as it is. -/
theorem Settles.eraseDups_filterMap {read : String → Option String} (h : Settles read)
    {directive : Option String} (hdirective : ∀ s ∈ directive, IsSpaced s) {names : List String}
    (hnames : names = ((directiveEntries directive).filterMap read).eraseDups) :
    ((directiveEntries (some (joined "," names))).filterMap read).eraseDups = names := by
  have hsettled : ∀ name ∈ names, IsPlainEntry name ∧ read name = some name := by
    intro name hname
    rw [hnames, List.mem_eraseDups, List.mem_filterMap] at hname
    obtain ⟨entry, hentry, hread⟩ := hname
    exact h entry name (isSpaced_of_mem_directiveEntries hdirective hentry)
      (isPlainEntry_of_mem hentry) hread
  have hself : names.filterMap read = names := by
    rw [List.filterMap_congr fun name hname => (hsettled name hname).2, List.filterMap_some]
  rw [directiveEntries_joined fun name hname => (hsettled name hname).1, hself, hnames,
    eraseDups_eraseDups]

variable {known : KnownNames}

/-- A path that is known in its inside spelling is read as that, any other path as itself. -/
theorem settles_path (h : known.path "" = false) : Settles (some ∘ resolvePath known) := by
  intro entry name hspaced hplain hread
  obtain rfl := Option.some.inj hread
  rw [Function.comp_apply, resolvePath]
  split
  · next hknown =>
      refine ⟨⟨fun hc => hplain.comma ((of_mem_camelPath hspaced hc).2 rfl),
        trim_of_not_blank fun c hc => (of_mem_camelPath hspaced hc).1, ?_⟩, ?_⟩
      · intro hempty
        rw [hempty, h] at hknown
        cases hknown
      · rw [resolvePath, camelPath_camelPath hspaced, if_pos hknown]
  · next hunknown => exact ⟨hplain, by rw [resolvePath, if_neg hunknown]⟩

/-- A relation that may be counted is read as itself. -/
theorem settles_count (h : known.aggregate "" = false) : Settles (resolveCount? known) := by
  intro entry name hspaced hplain hread
  have hself : known.aggregate name → resolveCount? known name = some name := fun hname => by
    rw [resolveCount?, if_pos hname]
  simp only [resolveCount?] at hread
  split at hread
  · next hknown =>
      obtain rfl := Option.some.inj hread
      exact ⟨hplain, hself hknown⟩
  · split at hread
    · next hknown =>
        obtain rfl := Option.some.inj hread
        refine ⟨⟨fun hc => hplain.comma ((of_mem_camelCase hspaced hc).2.1 rfl),
          trim_of_not_blank fun c hc => (of_mem_camelCase hspaced hc).1, ?_⟩, hself hknown⟩
        intro hempty
        rw [hempty, h] at hknown
        cases hknown
    · cases hread

/-! ### Resolving -/

/-- `i` is exactly what two directives stand for.  An entry is what stands between two commas
without the white space around it, unless it is blank.  To load, it stands for its path in the
inside spelling when that is known and for itself otherwise; to count, for itself when it may be
counted, else for its inside spelling when that may be counted, else for nothing. -/
structure IsInclusionOf (i : Inclusion) (toLoad toCount : Option String) (known : KnownNames) :
    Prop where
  relations : IsFirstMentions i.relations
    ((((pieces ',' (toLoad.getD "")).filter fun piece => !isBlankText piece).map trim).map
      fun entry => if known.path (camelPath entry) then camelPath entry else entry)
  counts : IsFirstMentions i.counts
    ((((pieces ',' (toCount.getD "")).filter fun piece => !isBlankText piece).map trim).filterMap
      fun entry =>
        if known.aggregate entry then some entry
        else if known.aggregate (camelCase entry) then some (camelCase entry)
        else none)
  declared : ∀ count ∈ i.counts, known.aggregate count

theorem isInclusionOf_resolveInclusion (toLoad toCount : Option String) (known : KnownNames) :
    IsInclusionOf (resolveInclusion toLoad toCount known) toLoad toCount known := by
  constructor
  · rw [← directiveEntries_eq]
    exact isFirstMentions_eraseDups _
  · rw [← directiveEntries_eq]
    exact isFirstMentions_eraseDups _
  · exact fun _ => aggregate_of_mem_counts

/-- Two directives of ASCII text whose only white space is the space, for an entity that knows
neither the empty path nor an empty relation to count, are resolved to exactly what they stand for,
and what they are resolved to, joined by commas, is resolved to the same again. -/
theorem inclusion_is_exact_and_idempotent (toLoad toCount : Option String) (known : KnownNames)
    (hload : ∀ s ∈ toLoad, IsSpaced s) (hcount : ∀ s ∈ toCount, IsSpaced s)
    (hpath : known.path "" = false) (haggregate : known.aggregate "" = false) :
    let i := resolveInclusion toLoad toCount known
    IsInclusionOf i toLoad toCount known ∧
      resolveInclusion (some (joined "," i.relations)) (some (joined "," i.counts)) known = i := by
  refine ⟨isInclusionOf_resolveInclusion toLoad toCount known, ?_⟩
  have hmap : ∀ entries : List String, entries.map (resolvePath known) =
      entries.filterMap (some ∘ resolvePath known) := fun entries =>
    (congrFun List.filterMap_eq_map entries).symm
  have hrelations := (settles_path hpath).eraseDups_filterMap hload rfl
  have hcounts := (settles_count haggregate).eraseDups_filterMap hcount rfl
  simp only [← hmap] at hrelations
  exact congrArg₂ Inclusion.mk hrelations hcounts

/-- Of a path in both spellings and one that is not known, and of a count and an unknown one. -/
theorem inclusion_is_exact_and_idempotent_books :
    let known : KnownNames := ⟨["bookTags.tag"].contains, ["books"].contains⟩
    let toLoad := some " book_tags.tag, On Sale,,bookTags.tag"
    let toCount := some "books, likes"
    let i : Inclusion := ⟨["bookTags.tag", "On Sale"], ["books"]⟩
    resolveInclusion toLoad toCount known = i ∧ IsInclusionOf i toLoad toCount known ∧
      resolveInclusion (some (joined "," i.relations)) (some (joined "," i.counts)) known = i := by
  intro known toLoad toCount i
  have hresolved : resolveInclusion toLoad toCount known = i := by decide +kernel
  have h := inclusion_is_exact_and_idempotent toLoad toCount known (by decide) (by decide)
    (by decide) (by decide)
  rw [hresolved] at h
  exact ⟨hresolved, h⟩

end EntityService.Query
