/-!
# White space

The characters with the Unicode property White_Space and the removal of white space around a text.

## Main definitions

* `isBlank` — the 25 white space characters
* `trim` — a text without the white space at its two ends
* `trimEnd` — a text without the white space at its end
-/

namespace EntityService.Text

/-- The characters with the property White_Space. -/
def isBlank (c : Char) : Bool :=
  let n := c.toNat
  (0x09 ≤ n && n ≤ 0x0D) || n == 0x20 || n == 0x85 || n == 0xA0 || n == 0x1680 ||
    (0x2000 ≤ n && n ≤ 0x200A) || n == 0x2028 || n == 0x2029 || n == 0x202F || n == 0x205F ||
    n == 0x3000

/-- A list of characters without the white space at its end. -/
def dropBlankEnd (cs : List Char) : List Char :=
  (cs.reverse.dropWhile isBlank).reverse

/-- A list of characters without the white space at its two ends. -/
def trimChars (cs : List Char) : List Char :=
  dropBlankEnd (cs.dropWhile isBlank)

/-- A text without the white space at its two ends. -/
def trim (s : String) : String :=
  String.ofList (trimChars s.toList)

/-- A text without the white space at its end. -/
def trimEnd (s : String) : String :=
  String.ofList (dropBlankEnd s.toList)

/-- A text that holds nothing but white space. -/
def isBlankText (s : String) : Bool :=
  s.toList.all isBlank

/-! ### White space at the ends -/

theorem trimChars_of_not_blank {cs : List Char} (h : ∀ c ∈ cs, isBlank c = false) :
    trimChars cs = cs := by
  have hstart : cs.dropWhile isBlank = cs := by
    cases cs with
    | nil => rfl
    | cons c cs => rw [List.dropWhile_cons_of_neg (by simp [h c List.mem_cons_self])]
  have hend : cs.reverse.dropWhile isBlank = cs.reverse := by
    cases hcs : cs.reverse with
    | nil => rfl
    | cons c rest =>
        have hmem : c ∈ cs := by
          rw [← List.mem_reverse, hcs]
          exact List.mem_cons_self
        rw [List.dropWhile_cons_of_neg (by simp [h c hmem])]
  rw [trimChars, hstart, dropBlankEnd, hend, List.reverse_reverse]

/-- A text without white space has none at its ends. -/
theorem trim_of_not_blank {s : String} (h : ∀ c ∈ s.toList, isBlank c = false) : trim s = s := by
  rw [trim, trimChars_of_not_blank h, String.ofList_toList]

theorem mem_of_mem_trim {s : String} {c : Char} (h : c ∈ (Text.trim s).toList) : c ∈ s.toList := by
  rw [Text.trim, String.toList_ofList, Text.trimChars, Text.dropBlankEnd, List.mem_reverse] at h
  exact (List.dropWhile_sublist _).mem
    (List.mem_reverse.mp ((List.dropWhile_sublist _).mem h))

theorem not_blank_of_head?_dropWhile {cs : List Char} {c : Char}
    (h : (cs.dropWhile isBlank).head? = some c) : isBlank c = false := by
  have hhead := List.head?_dropWhile_not isBlank cs
  rwa [h] at hhead

theorem dropWhile_isBlank_of_head? {cs : List Char}
    (h : ∀ c, cs.head? = some c → isBlank c = false) : cs.dropWhile isBlank = cs := by
  cases cs with
  | nil => rfl
  | cons c cs => rw [List.dropWhile_cons_of_neg (by simp [h c rfl])]

theorem dropBlankEnd_prefix (cs : List Char) : dropBlankEnd cs <+: cs := by
  have hsuffix : cs.reverse.dropWhile isBlank <:+ cs.reverse := List.dropWhile_suffix isBlank
  rwa [← List.reverse_prefix, List.reverse_reverse] at hsuffix

/-- What has no white space at its ends is left as it is. -/
theorem trimChars_trimChars (cs : List Char) : trimChars (trimChars cs) = trimChars cs := by
  have hstart : (trimChars cs).dropWhile isBlank = trimChars cs := by
    refine dropWhile_isBlank_of_head? fun c hc => ?_
    obtain ⟨rest, hrest⟩ := dropBlankEnd_prefix (cs.dropWhile isBlank)
    have hhead : (cs.dropWhile isBlank).head? = some c := by
      rw [← hrest, List.head?_append, ← trimChars, hc, Option.some_or]
    exact not_blank_of_head?_dropWhile hhead
  have hend : (trimChars cs).reverse.dropWhile isBlank = (trimChars cs).reverse := by
    refine dropWhile_isBlank_of_head? fun c hc => ?_
    rw [trimChars, dropBlankEnd, List.reverse_reverse] at hc
    exact not_blank_of_head?_dropWhile hc
  rw [trimChars, hstart, dropBlankEnd, hend, List.reverse_reverse]

theorem trim_trim (s : String) : trim (trim s) = trim s := by
  rw [trim, trim, String.toList_ofList, trimChars_trimChars]

/-- White space around a list of characters is removed with the white space at its ends. -/
theorem trimChars_append {before after : List Char} (hbefore : ∀ c ∈ before, isBlank c)
    (hafter : ∀ c ∈ after, isBlank c) (cs : List Char) :
    trimChars (before ++ cs ++ after) = trimChars cs := by
  have hreversed : ∀ c ∈ after.reverse, isBlank c := fun c hc => hafter c (List.mem_reverse.mp hc)
  rw [trimChars, List.append_assoc, List.dropWhile_append_of_pos hbefore, List.dropWhile_append]
  split
  · next hnone =>
      -- everything is blank, so that nothing is left
      have hblank : after.dropWhile isBlank = [] := by
        rw [← List.append_nil after, List.dropWhile_append_of_pos hafter, List.dropWhile_nil]
      rw [trimChars, hblank, List.isEmpty_iff.mp hnone]
  · rw [dropBlankEnd, List.reverse_append, List.dropWhile_append_of_pos hreversed]
    rfl

/-- White space around a text is removed with the white space at its ends. -/
theorem trim_append {before after : String} (hbefore : isBlankText before)
    (hafter : isBlankText after) (s : String) : trim (before ++ s ++ after) = trim s := by
  rw [trim, String.toList_append, String.toList_append,
    trimChars_append (List.all_eq_true.mp hbefore) (List.all_eq_true.mp hafter)]
  rfl

theorem dropWhile_isBlank_eq_nil_iff {cs : List Char} :
    cs.dropWhile isBlank = [] ↔ ∀ c ∈ cs, isBlank c := by
  induction cs with
  | nil => simp
  | cons c cs ih =>
      rw [List.dropWhile_cons, List.forall_mem_cons]
      cases hc : isBlank c <;> simp [ih]

theorem trimChars_eq_nil_iff {cs : List Char} : trimChars cs = [] ↔ ∀ c ∈ cs, isBlank c := by
  rw [trimChars, dropBlankEnd, List.reverse_eq_nil_iff, ← @dropWhile_isBlank_eq_nil_iff cs]
  constructor
  · intro h
    rw [dropWhile_isBlank_eq_nil_iff] at h
    -- what is left at the start would begin with something that is not blank
    cases hstart : cs.dropWhile isBlank with
    | nil => rfl
    | cons c rest =>
        have hc : isBlank c = false := not_blank_of_head?_dropWhile (by rw [hstart]; rfl)
        have hblank := h c (by simp [hstart])
        rw [hc] at hblank
        cases hblank
  · intro h
    rw [h]
    rfl

/-- Nothing is left of a text that holds nothing but white space. -/
theorem trim_eq_empty_iff {s : String} : trim s = "" ↔ isBlankText s := by
  rw [trim, isBlankText, ← String.toList_eq_nil_iff, String.toList_ofList, trimChars_eq_nil_iff,
    List.all_eq_true]

end EntityService.Text
