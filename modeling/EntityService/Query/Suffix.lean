import EntityService.Query.Comparison

/-!
# Filter suffixes

A filter key is a column name, or a column name with a suffix that says how to compare:
`status_not`, `age_gte`, `id_in`, `deleted_at_isNull`.

## Main definitions

* `SuffixKind` — what a suffix asks for
* `SuffixRule.all` — the ten suffixes
* `resolveSuffix?` — the column and the rule of a key

## Design notes

Keys and suffixes are compared in lower case, and the column is given in lower case.  No suffix ends
in another one, so at most one rule fits a key.
-/

namespace EntityService.Query

open EntityService.Text

/-- What a suffix asks for. -/
inductive SuffixKind where
  | compare (op : Comparison)
  | isIn
  | notIn
  | isNull
  | isNotNull
  deriving DecidableEq, Repr

/-- A suffix with what it asks for. -/
structure SuffixRule where
  suffix : String
  kind : SuffixKind
  deriving DecidableEq, Repr

namespace SuffixRule

/-- The ten suffixes, longer ones first. -/
def all : List SuffixRule :=
  [⟨"_isNotNull", .isNotNull⟩, ⟨"_isNull", .isNull⟩, ⟨"_notIn", .notIn⟩,
   ⟨"_like", .compare .like⟩, ⟨"_gte", .compare .gte⟩, ⟨"_lte", .compare .lte⟩,
   ⟨"_not", .compare .notEq⟩, ⟨"_gt", .compare .gt⟩, ⟨"_lt", .compare .lt⟩,
   ⟨"_in", .isIn⟩]

/-- What stands before the rule's suffix in the characters of a key in lower case; absent when the
key does not end in the suffix or is nothing else. -/
def base? (rule : SuffixRule) (key : List Char) : Option (List Char) :=
  let suffix := (lowercase rule.suffix).toList
  if suffix.isSuffixOf key ∧ suffix.length < key.length then
    some (key.take (key.length - suffix.length))
  else none

end SuffixRule

/-- The column and the rule of a key, by the first of the given rules that fits. -/
def resolveSuffixBy? (rules : List SuffixRule) (key : String) : Option (String × SuffixRule) :=
  let lower := (lowercase key).toList
  rules.findSome? fun rule => (rule.base? lower).map fun base => (String.ofList base, rule)

/-- The column and the rule of a key. -/
def resolveSuffix? (key : String) : Option (String × SuffixRule) :=
  resolveSuffixBy? SuffixRule.all key

end EntityService.Query
