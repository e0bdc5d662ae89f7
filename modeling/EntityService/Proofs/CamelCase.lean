import EntityService.Naming

/-!
# Inside spellings

The inside spelling of a name in ASCII is a name in the inside spelling already, and so is that of a
dotted path.

## Main definitions

* `IsSpaced` — a text of ASCII characters whose only white space is the space

## Main results

* `camelCase_camelCase`, `camelPath_camelPath` — spelling a name or a path twice is spelling it once
* `of_mem_camelPath` — the inside spelling of a path has no white space and no comma of its own

## Design notes

A character is kept, or replaced by its lowercase or uppercase form.  All that is needed of these
forms is shown once, by looking at each ASCII character.
-/

namespace EntityService.Naming

open EntityService.Text

/-! ### Forms of characters -/

/-- What holds of each code point below 128 holds of each ASCII character. -/
theorem forall_ascii {P : Char → Prop} (h : ∀ n < 128, P (Char.ofNat n)) (c : Char)
    (hc : c.toNat < 128) : P c := by
  have hchar := h c.toNat hc
  rwa [Char.ofNat_toNat] at hchar

/-- A character with its lowercase and its uppercase form. -/
def caseForms (c : Char) : List Char := c :: (lowerChars c ++ upperChars c)

/-- The forms of a character are of the same kind as the character. -/
theorem of_mem_caseForms {c d : Char} (hc : c.toNat < 128) (hd : d ∈ caseForms c) :
    d.toNat < 128 ∧ isDelimiter d = isDelimiter c ∧ isBlank d = isBlank c ∧
      (d = ',' → c = ',') ∧ (d = '.' → c = '.') := by
  have hall : ∀ c : Char, c.toNat < 128 → (caseForms c).all fun d => d.toNat < 128 ∧
      isDelimiter d = isDelimiter c ∧ isBlank d = isBlank c ∧ (d = ',' → c = ',') ∧
      (d = '.' → c = '.') := forall_ascii (by decide +kernel)
  exact of_decide_eq_true (List.all_eq_true.mp (hall c hc) d hd)

/-- The lowercase form is one character, which is in lower case. -/
theorem exists_lowerChars_eq {c : Char} (hc : c.toNat < 128) :
    ∃ d, lowerChars c = [d] ∧ lowerChars d = [d] := by
  have hall : ∀ c : Char, c.toNat < 128 → (lowerChars c).length = 1 ∧
      (lowerChars c).flatMap lowerChars = lowerChars c := forall_ascii (by decide +kernel)
  obtain ⟨hlength, htwice⟩ := hall c hc
  obtain ⟨d, hd⟩ := List.length_eq_one_iff.mp hlength
  rw [hd, List.flatMap_singleton] at htwice
  exact ⟨d, hd, htwice⟩

/-! ### Names -/

variable {started capital : Bool} {cs : List Char} {d : Char}

/-- A character of the inside spelling is a form of one that does not separate words. -/
theorem exists_of_mem_camelFrom (h : d ∈ camelFrom started capital cs) :
    ∃ c ∈ cs, isDelimiter c = false ∧ d ∈ caseForms c := by
  fun_induction camelFrom started capital cs with
  | case1 => cases h
  | case2 started capital c rest hc ih =>
      exact (ih h).imp fun _ h => ⟨List.mem_cons_of_mem c h.1, h.2⟩
  | case3 started capital c rest hc hstarted ih =>
      rcases List.mem_append.mp h with h | h
      · exact ⟨c, List.mem_cons_self, by simpa using hc, by simp [caseForms, h]⟩
      · exact (ih h).imp fun _ h => ⟨List.mem_cons_of_mem c h.1, h.2⟩
  | case4 started c rest hc hstarted ih =>
      rcases List.mem_append.mp h with h | h
      · exact ⟨c, List.mem_cons_self, by simpa using hc, by simp [caseForms, h]⟩
      · exact (ih h).imp fun _ h => ⟨List.mem_cons_of_mem c h.1, h.2⟩
  | case5 started capital c rest hc hstarted hcapital ih =>
      rcases List.mem_cons.mp h with rfl | h
      · exact ⟨d, List.mem_cons_self, by simpa using hc, List.mem_cons_self⟩
      · exact (ih h).imp fun _ h => ⟨List.mem_cons_of_mem c h.1, h.2⟩

theorem camelFrom_of_not_delimiter (h : ∀ c ∈ cs, isDelimiter c = false) :
    camelFrom true false cs = cs := by
  induction cs with
  | nil => rfl
  | cons c cs ih =>
      rw [List.forall_mem_cons] at h
      rw [camelFrom, h.1, ih h.2]
      rfl

/-- The inside spelling of a name begins with a character in lower case. -/
theorem camelFrom_false_cases (h : ∀ c ∈ cs, c.toNat < 128) :
    camelFrom false capital cs = [] ∨
      ∃ c rest, camelFrom false capital cs = c :: rest ∧ lowerChars c = [c] := by
  induction cs generalizing capital with
  | nil => exact .inl rfl
  | cons c cs ih =>
      rw [List.forall_mem_cons] at h
      rw [camelFrom]
      split
      · exact ih h.2
      · obtain ⟨d, hlower, hd⟩ := exists_lowerChars_eq h.1
        refine .inr ⟨d, camelFrom true false cs, ?_, hd⟩
        rw [hlower]
        rfl

/-- A name in the inside spelling is its own inside spelling. -/
theorem camelCase_camelCase {s : String} (h : ∀ c ∈ s.toList, c.toNat < 128) :
    camelCase (camelCase s) = camelCase s := by
  have hplain : ∀ c ∈ camelFrom false false s.toList, isDelimiter c = false := by
    intro d hd
    obtain ⟨c, hc, hdelimiter, hform⟩ := exists_of_mem_camelFrom hd
    rw [(of_mem_caseForms (h c hc) hform).2.1, hdelimiter]
  rw [camelCase, camelCase, String.toList_ofList]
  refine congrArg String.ofList ?_
  rcases camelFrom_false_cases h with hnil | ⟨c, rest, hcons, hlower⟩
  · rw [hnil]
    rfl
  · rw [hcons] at hplain ⊢
    rw [List.forall_mem_cons] at hplain
    rw [camelFrom, hplain.1, hlower, camelFrom_of_not_delimiter hplain.2]
    rfl

/-! ### Paths -/

/-- A text of ASCII characters whose only white space is the space. -/
def IsSpaced (s : String) : Prop := ∀ c ∈ s.toList, c.toNat < 128 ∧ (isBlank c → c = ' ')

instance (s : String) : Decidable (IsSpaced s) :=
  List.decidableBAll (fun c : Char => c.toNat < 128 ∧ (isBlank c → c = ' ')) s.toList

theorem IsSpaced.mono {s t : String} (h : IsSpaced s) (ht : ∀ c ∈ t.toList, c ∈ s.toList) :
    IsSpaced t :=
  fun c hc => h c (ht c hc)

/-- What is not in the inside spelling of a name: white space and, unless they are in the name, the
characters that separate names. -/
theorem of_mem_camelCase {s : String} (h : IsSpaced s) {d : Char} (hd : d ∈ (camelCase s).toList) :
    isBlank d = false ∧ (d = ',' → ',' ∈ s.toList) ∧ (d = '.' → '.' ∈ s.toList) := by
  rw [camelCase, String.toList_ofList] at hd
  obtain ⟨c, hc, hdelimiter, hform⟩ := exists_of_mem_camelFrom hd
  obtain ⟨hascii, hblank⟩ := h c hc
  obtain ⟨-, -, hsame, hcomma, hpoint⟩ := of_mem_caseForms hascii hform
  refine ⟨?_, fun heq => hcomma heq ▸ hc, fun heq => hpoint heq ▸ hc⟩
  -- a blank character is the space, which separates words
  rw [hsame]
  refine eq_false_of_ne_true fun hb => ?_
  rw [hblank hb] at hdelimiter
  cases hdelimiter

section CamelPath

variable {path : String} (h : IsSpaced path)

include h

theorem isSpaced_segment {segment : String} (hsegment : segment ∈ pieces '.' path) :
    IsSpaced (trim segment) :=
  h.mono fun _ hc => mem_of_mem_pieces hsegment (mem_of_mem_trim hc)

/-- The segments of the inside spelling of a path. -/
theorem pieces_camelPath :
    pieces '.' (camelPath path) =
      (pieces '.' path).map fun segment => camelCase (trim segment) := by
  refine pieces_joined ?_ (by simpa using pieces_ne_nil '.' path)
  intro part hpart hpoint
  obtain ⟨segment, hsegment, rfl⟩ := List.mem_map.mp hpart
  have hmem := (of_mem_camelCase (isSpaced_segment h hsegment) hpoint).2.2 rfl
  exact not_mem_of_mem_pieces hsegment (mem_of_mem_trim hmem)

/-- A path in the inside spelling is its own inside spelling. -/
theorem camelPath_camelPath : camelPath (camelPath path) = camelPath path := by
  rw [camelPath, pieces_camelPath h, List.map_map, camelPath]
  refine congrArg (joined ".") (List.map_congr_left fun segment hsegment => ?_)
  have hspaced := isSpaced_segment h hsegment
  have htrim : trim (camelCase (trim segment)) = camelCase (trim segment) :=
    trim_of_not_blank fun d hd => (of_mem_camelCase hspaced hd).1
  rw [Function.comp_apply, htrim, camelCase_camelCase fun c hc => (hspaced c hc).1]

/-- The inside spelling of a path has no white space, and no comma unless the path has one. -/
theorem of_mem_camelPath {d : Char} (hd : d ∈ (camelPath path).toList) :
    isBlank d = false ∧ (d = ',' → ',' ∈ path.toList) := by
  rcases mem_of_mem_joined hd with hpoint | ⟨part, hpart, hd⟩
  · obtain rfl := List.mem_singleton.mp hpoint
    exact ⟨rfl, fun heq => by cases heq⟩
  · obtain ⟨segment, hsegment, rfl⟩ := List.mem_map.mp hpart
    obtain ⟨hblank, hcomma, -⟩ := of_mem_camelCase (isSpaced_segment h hsegment) hd
    exact ⟨hblank, fun heq => mem_of_mem_pieces hsegment (mem_of_mem_trim (hcomma heq))⟩

end CamelPath

end EntityService.Naming
