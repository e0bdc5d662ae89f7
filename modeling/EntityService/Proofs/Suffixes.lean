import EntityService.Proofs.LowerCase
import EntityService.Query.Filter
import Mathlib.Data.List.Forall2

/-!
# Suffixes of filter keys

A key with a suffix can be read in one way only, whatever the order is in which the suffixes are
tried, and each parameter of a request asks for what its key says.

## Main definitions

* `SuffixRule.Fits` — a key is made of a base and the suffix of a rule
* `Unambiguous` — no suffix ends in another one
* `Clause.Follows` — a clause is what a suffix asks for
* `AskedBy` — the clauses that one parameter asks for

## Main results

* `resolveSuffixBy?_eq_some_iff` — the rule that is found is the one that fits
* `askedBy_clausesOfParam` — a parameter asks for what its key says
* `resolveSuffix?_append` — a suffix is found after a column, in any letter case
* `suffixes_resolve_unambiguously` — suffixes and the filters of requests

## Design notes

Of two suffixes of one key one would be a suffix of the other, so it is enough to compare the
suffixes with each other.  That they are tried in some order is of no consequence then, and neither
is it that a base may look like a column with a suffix.
-/

namespace EntityService.Query

open EntityService.Json EntityService.Text

/-! ## The rule of a key -/

variable {rules : List SuffixRule} {rule rule' : SuffixRule} {key base base' : String}

/-- A key in lower case is a base that is not empty with the suffix of the rule after it. -/
structure SuffixRule.Fits (rule : SuffixRule) (key base : String) : Prop where
  base_ne : base ≠ ""
  lowercase_key : lowercase key = base ++ lowercase rule.suffix

/-- No suffix of a rule ends in the suffix of another one. -/
def Unambiguous (rules : List SuffixRule) : Prop :=
  ∀ rule ∈ rules, ∀ rule' ∈ rules,
    (lowercase rule.suffix).toList <:+ (lowercase rule'.suffix).toList → rule = rule'

instance (rules : List SuffixRule) : Decidable (Unambiguous rules) :=
  inferInstanceAs (Decidable (∀ rule ∈ rules, ∀ rule' ∈ rules,
    (lowercase rule.suffix).toList <:+ (lowercase rule'.suffix).toList → rule = rule'))

theorem unambiguous_all : Unambiguous SuffixRule.all := by
  decide +kernel

/-- At most one rule fits a key, with one base. -/
theorem Unambiguous.eq_of_fits (h : Unambiguous rules) (hrule : rule ∈ rules)
    (hrule' : rule' ∈ rules) (hfits : rule.Fits key base) (hfits' : rule'.Fits key base') :
    base = base' ∧ rule = rule' := by
  have hkey : base.toList ++ (lowercase rule.suffix).toList =
      base'.toList ++ (lowercase rule'.suffix).toList := by
    rw [← String.toList_append, ← String.toList_append, ← hfits.lowercase_key,
      hfits'.lowercase_key]
  have heq : rule = rule' := by
    rcases List.suffix_or_suffix_of_suffix ⟨_, hkey⟩ (List.suffix_append _ _) with hsuffix | hsuffix
    · exact h rule hrule rule' hrule' hsuffix
    · exact (h rule' hrule' rule hrule hsuffix).symm
  subst heq
  exact ⟨String.toList_inj.mp (List.append_cancel_right hkey), rfl⟩

theorem SuffixRule.base?_eq_some_iff {cs start : List Char} :
    rule.base? cs = some start ↔ start ≠ [] ∧ cs = start ++ (lowercase rule.suffix).toList := by
  unfold base?
  dsimp only
  rw [Option.ite_none_right_eq_some, List.isSuffixOf_iff_suffix, Option.some.injEq]
  constructor
  · rintro ⟨⟨⟨before, rfl⟩, hlength⟩, rfl⟩
    rw [List.length_append] at hlength ⊢
    rw [Nat.add_sub_cancel, List.take_left]
    exact ⟨List.ne_nil_of_length_pos (by omega), rfl⟩
  · rintro ⟨hne, rfl⟩
    have hpos : 0 < start.length := List.length_pos_iff.mpr hne
    rw [List.length_append, Nat.add_sub_cancel, List.take_left]
    exact ⟨⟨List.suffix_append _ _, by omega⟩, rfl⟩

/-- A rule is found for a base when it fits. -/
theorem SuffixRule.fits_iff :
    rule.Fits key base ↔
      (rule.base? (lowercase key).toList).map String.ofList = some base := by
  rw [Option.map_eq_some_iff]
  constructor
  · rintro ⟨hne, hkey⟩
    refine ⟨base.toList, base?_eq_some_iff.mpr ⟨?_, ?_⟩, String.ofList_toList⟩
    · rwa [ne_eq, String.toList_eq_nil_iff]
    · rw [hkey, String.toList_append]
  · rintro ⟨start, hstart, rfl⟩
    obtain ⟨hne, hkey⟩ := base?_eq_some_iff.mp hstart
    refine ⟨?_, ?_⟩
    · rwa [ne_eq, ← String.toList_eq_nil_iff, String.toList_ofList]
    · apply String.toList_inj.mp
      rw [hkey, String.toList_append, String.toList_ofList]

/-- The rule that is found is the one that fits. -/
theorem resolveSuffixBy?_eq_some_iff (h : Unambiguous rules) :
    resolveSuffixBy? rules key = some (base, rule) ↔ rule ∈ rules ∧ rule.Fits key base := by
  have hfound {base : String} {rule : SuffixRule}
      (hresolve : resolveSuffixBy? rules key = some (base, rule)) :
      rule ∈ rules ∧ rule.Fits key base := by
    obtain ⟨found, hmem, hbase⟩ := List.exists_of_findSome?_eq_some hresolve
    obtain ⟨start, hstart, heq⟩ := Option.map_eq_some_iff.mp hbase
    obtain ⟨rfl, rfl⟩ := Prod.mk.inj heq
    exact ⟨hmem, SuffixRule.fits_iff.mpr (by rw [hstart, Option.map_some])⟩
  refine ⟨hfound, fun ⟨hmem, hfits⟩ => ?_⟩
  -- some rule is found, and there is no other one that fits
  have hsome : (resolveSuffixBy? rules key).isSome := by
    obtain ⟨start, hstart, -⟩ := Option.map_eq_some_iff.mp (SuffixRule.fits_iff.mp hfits)
    exact List.findSome?_isSome_iff.mpr ⟨rule, hmem, by rw [hstart]; rfl⟩
  obtain ⟨⟨base', rule'⟩, hresolve⟩ := Option.isSome_iff_exists.mp hsome
  obtain ⟨hmem', hfits'⟩ := hfound hresolve
  obtain ⟨rfl, rfl⟩ := h.eq_of_fits hmem' hmem hfits' hfits
  exact hresolve

theorem resolveSuffix?_eq_some_iff :
    resolveSuffix? key = some (base, rule) ↔ rule ∈ SuffixRule.all ∧ rule.Fits key base :=
  resolveSuffixBy?_eq_some_iff unambiguous_all

/-- The order of the rules does not matter. -/
theorem resolveSuffixBy?_eq_of_perm {others : List SuffixRule} (h : Unambiguous rules)
    (hperm : others.Perm rules) (key : String) :
    resolveSuffixBy? others key = resolveSuffixBy? rules key := by
  have hothers : Unambiguous others := fun rule hrule rule' hrule' =>
    h rule (hperm.mem_iff.mp hrule) rule' (hperm.mem_iff.mp hrule')
  refine Option.ext fun ⟨base, rule⟩ => ?_
  rw [resolveSuffixBy?_eq_some_iff hothers, resolveSuffixBy?_eq_some_iff h, hperm.mem_iff]

/-- A suffix is found after a column in lower case, in whatever letter case it is spelled. -/
theorem resolveSuffix?_append {c suffix : String} (hrule : rule ∈ SuffixRule.all) (hc : c ≠ "")
    (hlower : lowercase c = c) (hsuffix : lowercase suffix = lowercase rule.suffix) :
    resolveSuffix? (c ++ suffix) = some (c, rule) := by
  have hsigma : capitalSigma ∉ suffix.toList := by
    intro hmem
    have hplain : ∀ rule ∈ SuffixRule.all, 'ς' ∉ (lowercase rule.suffix).toList ∧
        'σ' ∉ (lowercase rule.suffix).toList := by decide +kernel
    obtain ⟨d, hd, hform⟩ := exists_sigma_mem_lowercaseAfter hmem []
    have hlower : d ∈ (lowercase rule.suffix).toList := by
      rwa [← hsuffix, lowercase, String.toList_ofList]
    rcases hform with rfl | rfl
    · exact (hplain rule hrule).1 hlower
    · exact (hplain rule hrule).2 hlower
  refine resolveSuffix?_eq_some_iff.mpr ⟨hrule, hc, ?_⟩
  rw [lowercase_append hlower hsigma, hsuffix]

/-! ## The clauses of a parameter -/

/-- How a clause compares. -/
def Clause.kind : Clause → SuffixKind
  | .equality _ _ => .compare .eq
  | .comparison _ op _ => .compare op
  | .membership _ _ false => .isIn
  | .membership _ _ true => .notIn
  | .nullness _ true => .isNull
  | .nullness _ false => .isNotNull

/-- The values that a clause compares with. -/
def Clause.operands : Clause → List Value
  | .equality _ value => [value]
  | .comparison _ _ value => [value]
  | .membership _ values _ => values
  | .nullness _ _ => []

/-- The values that are made of the value of a parameter: the texts between its commas for a list,
none for nullness, the text between two `%` for a form, and the text itself for the other
comparisons. -/
def SuffixKind.Takes (value : String) (operands : List Value) : SuffixKind → Prop
  | .isIn | .notIn => ∃ texts : List String, operands = texts.map .string ∧ texts ≠ [] ∧
      (∀ text ∈ texts, ',' ∉ text.toList) ∧ joined "," texts = value
  | .isNull | .isNotNull => operands = []
  | .compare .like => operands = [.string ("%" ++ value ++ "%")]
  | .compare _ => operands = [.string value]

/-- A clause is what a suffix asks for. -/
structure Clause.Follows (clause : Clause) (kind : SuffixKind) (column value : String) : Prop where
  column_eq : clause.column = column
  kind_eq : clause.kind = kind
  takes : kind.Takes value clause.operands

theorem SuffixKind.follows_clause (kind : SuffixKind) (column value : String) :
    (kind.clause column value).Follows kind column value where
  column_eq := kind.column_clause column value
  kind_eq := by
    cases kind with
    | compare op => cases op <;> rfl
    | _ => rfl
  takes := by
    have hlisted : ∃ texts : List String, listedValues value = texts.map .string ∧ texts ≠ [] ∧
        (∀ text ∈ texts, ',' ∉ text.toList) ∧ joined "," texts = value :=
      ⟨pieces ',' value, rfl, pieces_ne_nil ',' value, fun _ => not_mem_of_mem_pieces,
        joined_pieces ',' value⟩
    cases kind with
    | isIn => exact hlisted
    | notIn => exact hlisted
    | isNull => rfl
    | isNotNull => rfl
    | compare op => cases op <;> rfl

variable {fields : FieldSet} {value : String}

/-- The clause that the suffix of a key asks for, if the base is a column that a request may filter
by. -/
inductive SuffixAsks (fields : FieldSet) (key value : String) : List Clause → Prop
  | clause {rule : SuffixRule} {base : String} {clause : Clause} (mem : rule ∈ SuffixRule.all)
      (fits : rule.Fits key base) (allowed : fields.contains base)
      (follows : clause.Follows rule.kind base value) : SuffixAsks fields key value [clause]
  | nothing
      (refused : ∀ rule ∈ SuffixRule.all, ∀ base, rule.Fits key base → ¬fields.contains base) :
      SuffixAsks fields key value []

/-- The clauses that a parameter asks for: an equality first, when a request may filter by its whole
key, and then what the suffix asks for. -/
def AskedBy (fields : FieldSet) (param : String × String) (clauses : List Clause) : Prop :=
  ∃ bySuffix, SuffixAsks fields param.1 param.2 bySuffix ∧
    clauses =
      (if fields.contains param.1 then [.equality param.1 (.string param.2)] else []) ++ bySuffix

theorem suffixAsks_suffixClause? (fields : FieldSet) (key value : String) :
    SuffixAsks fields key value (suffixClause? fields key value).toList := by
  unfold suffixClause?
  split
  · next hresolve =>
      refine .nothing fun rule hrule base hfits _ => ?_
      rw [resolveSuffix?_eq_some_iff.mpr ⟨hrule, hfits⟩] at hresolve
      cases hresolve
  · next base rule hresolve =>
      obtain ⟨hrule, hfits⟩ := resolveSuffix?_eq_some_iff.mp hresolve
      split
      · next hallowed => exact .clause hrule hfits hallowed (rule.kind.follows_clause base value)
      · next hrefused =>
          refine .nothing fun rule' hrule' base' hfits' => ?_
          obtain ⟨rfl, rfl⟩ := unambiguous_all.eq_of_fits hrule hrule' hfits hfits'
          exact hrefused

theorem suffixClause?_eq_some (hresolve : resolveSuffix? key = some (base, rule))
    (hallowed : fields.contains base) (value : String) :
    suffixClause? fields key value = some (rule.kind.clause base value) := by
  unfold suffixClause?
  rw [hresolve]
  exact if_pos hallowed

/-- A parameter asks for what its key says. -/
theorem askedBy_clausesOfParam (fields : FieldSet) (param : String × String) :
    AskedBy fields param (clausesOfParam fields param.1 param.2) := by
  refine ⟨_, suffixAsks_suffixClause? fields param.1 param.2, ?_⟩
  rw [clausesOfParam, exactClause?]
  split <;> rfl

/-- A suffix after a column in lower case asks for a clause on this column. -/
theorem exists_follows_of_append {params : Params} {c suffix : String} (hc : c ≠ "")
    (hparam : (c ++ suffix, value) ∈ params.pairs) (hallowed : fields.contains c)
    (hlower : lowercase c = c) (hrule : rule ∈ SuffixRule.all)
    (hsuffix : lowercase suffix = lowercase rule.suffix) :
    ∃ clause ∈ resolveFilters params fields, clause.Follows rule.kind c value := by
  refine ⟨rule.kind.clause c value, ?_, rule.kind.follows_clause c value⟩
  have hresolve := resolveSuffix?_append hrule hc hlower hsuffix
  have hclause := suffixClause?_eq_some hresolve hallowed value
  exact List.mem_flatMap.mpr
    ⟨_, hparam, List.mem_append_right _ (Option.mem_toList.mpr hclause)⟩

/-- A rule is found for a key when it fits with a base that is not empty; no other rule fits, and
the order in which the rules are tried does not matter.  The filters of a request are what its
parameters ask for, one after the other.  In particular a suffix in any letter case after an allowed
column in lower case asks for a clause on this column, if it has a name. -/
theorem suffixes_resolve_unambiguously :
    (∀ key base rule, resolveSuffix? key = some (base, rule) ↔
      rule ∈ SuffixRule.all ∧ rule.Fits key base) ∧
    (∀ key base base' rule rule', rule ∈ SuffixRule.all → rule' ∈ SuffixRule.all →
      rule.Fits key base → rule'.Fits key base' → base = base' ∧ rule = rule') ∧
    (∀ rules : List SuffixRule, rules.Perm SuffixRule.all →
      ∀ key, resolveSuffixBy? rules key = resolveSuffix? key) ∧
    (∀ fields params, ∃ parts, List.Forall₂ (AskedBy fields) params.pairs parts ∧
      resolveFilters params fields = parts.flatten) ∧
    ∀ (fields : FieldSet) (params : Params) (c suffix value : String) (rule : SuffixRule), c ≠ "" →
      (c ++ suffix, value) ∈ params.pairs → fields.contains c → lowercase c = c →
      rule ∈ SuffixRule.all → lowercase suffix = lowercase rule.suffix →
      ∃ clause ∈ resolveFilters params fields, clause.Follows rule.kind c value := by
  refine ⟨fun key base rule => resolveSuffix?_eq_some_iff, ?_, ?_, ?_, ?_⟩
  · intro key base base' rule rule' hrule hrule' hfits hfits'
    exact unambiguous_all.eq_of_fits hrule hrule' hfits hfits'
  · intro rules hperm key
    exact resolveSuffixBy?_eq_of_perm unambiguous_all hperm key
  · intro fields params
    refine ⟨params.pairs.map fun param => clausesOfParam fields param.1 param.2, ?_, ?_⟩
    · exact List.forall₂_map_right_iff.mpr
        (List.forall₂_same.mpr fun param _ => askedBy_clausesOfParam fields param)
    · rw [resolveFilters, List.flatMap_def]
  · intro fields params c suffix value rule hc hparam hallowed hlower hrule hsuffix
    exact exists_follows_of_append hc hparam hallowed hlower hrule hsuffix

/-- A column that looks like one with a suffix itself, and suffixes in other letter cases. -/
theorem suffixes_resolve_unambiguously_titles :
    let fields := FieldSet.of ["title", "title_not"] "id" "created_at" "updated_at"
    resolveSuffix? "Title_Not_LIKE" = some ("title_not", ⟨"_like", .compare .like⟩) ∧
      resolveSuffixBy? SuffixRule.all.reverse "title_isNotNull" =
        resolveSuffix? "title_isNotNull" ∧
      ∃ clause ∈ resolveFilters ⟨[("page", "1"), ("title_not_nOTiN", "a,b")]⟩ fields,
        clause.Follows .notIn "title_not" "a,b" := by
  intro fields
  obtain ⟨hresolve, -, hperm, -, hfollows⟩ := suffixes_resolve_unambiguously
  refine ⟨(hresolve _ _ _).mpr ⟨by decide, by decide, by decide +kernel⟩,
    hperm _ (List.reverse_perm _) _, ?_⟩
  exact hfollows fields _ "title_not" "_nOTiN" "a,b" ⟨"_notIn", .notIn⟩ (by decide) (by decide)
    (by decide +kernel) (by decide +kernel) (by decide) (by decide +kernel)

/-- A suffix alone asks for nothing, although a column without a name is allowed. -/
theorem suffix_alone_asks_for_nothing :
    let fields := FieldSet.of [""] "id" "created_at" "updated_at"
    fields.contains "" ∧ lowercase "" = "" ∧ ⟨"_like", .compare .like⟩ ∈ SuffixRule.all ∧
      ¬∃ clause ∈ resolveFilters ⟨[("" ++ "_like", "oo")]⟩ fields,
        clause.Follows (.compare .like) "" "oo" := by
  intro fields
  have huncovered : ¬fields.covers ("" ++ "_like") := by decide +kernel
  have hnothing : resolveFilters ⟨[("" ++ "_like", "oo")]⟩ fields = [] :=
    (List.flatMap_singleton _ _).trans (clausesOfParam_eq_nil huncovered "oo")
  refine ⟨by decide +kernel, by decide +kernel, by decide, ?_⟩
  rintro ⟨clause, hclause, -⟩
  exact List.not_mem_nil (hnothing ▸ hclause)

end EntityService.Query
