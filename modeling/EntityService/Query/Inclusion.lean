import EntityService.Naming

/-!
# Inclusion directives

The relations that a request asks to load and to count.

## Main definitions

* `Inclusion` — relation paths to load and relations to count
* `KnownNames` — the names an entity makes available
* `resolveInclusion` — the inclusion of two directives

## Design notes

Entries may be spelled the inside or the outside way.  A path that is not known is kept as it is
spelled, for the store to pass over; a count that is not known is dropped.
-/

namespace EntityService.Query

open EntityService.Naming EntityService.Text

/-- Relation paths to load and relations to count, each once. -/
structure Inclusion where
  relations : List String
  counts : List String
  deriving DecidableEq, Repr, Inhabited

namespace Inclusion

/-- Nothing to load and nothing to count. -/
def empty : Inclusion := ⟨[], []⟩

/-- There is nothing to load and nothing to count. -/
def isEmpty (i : Inclusion) : Bool := i.relations.isEmpty && i.counts.isEmpty

end Inclusion

/-- The names an entity makes available: paths of relations and relations that may be counted. -/
structure KnownNames where
  path : String → Bool
  aggregate : String → Bool

/-- The entries of a directive: what stands between its commas, without white space around it and
without blank entries. -/
def directiveEntries (directive : Option String) : List String :=
  ((pieces ',' (directive.getD "")).map trim).filter (· ≠ "")

/-- The path of an entry: its inside spelling when that is known, else the entry itself. -/
def resolvePath (known : KnownNames) (entry : String) : String :=
  let path := camelPath entry
  if known.path path then path else entry

/-- The relation an entry asks to count: the entry itself when it is known, else its inside spelling
when that is known. -/
def resolveCount? (known : KnownNames) (entry : String) : Option String :=
  if known.aggregate entry then some entry
  else
    let name := camelCase entry
    if known.aggregate name then some name else none

/-- The inclusion of a directive to load and a directive to count. -/
def resolveInclusion (toLoad toCount : Option String) (known : KnownNames) : Inclusion :=
  { relations := ((directiveEntries toLoad).map (resolvePath known)).eraseDups
    counts := ((directiveEntries toCount).filterMap (resolveCount? known)).eraseDups }

theorem aggregate_of_resolveCount? {known : KnownNames} {entry name : String}
    (h : resolveCount? known entry = some name) : known.aggregate name := by
  unfold resolveCount? at h
  grind

/-- What is resolved to be counted is known. -/
theorem aggregate_of_mem_counts {toLoad toCount : Option String} {known : KnownNames}
    {name : String} (h : name ∈ (resolveInclusion toLoad toCount known).counts) :
    known.aggregate name := by
  obtain ⟨entry, -, hread⟩ := List.mem_filterMap.mp (List.mem_eraseDups.mp h)
  exact aggregate_of_resolveCount? hread

end EntityService.Query
