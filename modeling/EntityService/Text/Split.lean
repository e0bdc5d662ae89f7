/-!
# Cutting texts

Cutting a text at a separator and putting the pieces together again.

## Main definitions

* `pieces` — the pieces of a text between the occurrences of a separator
* `cutOnce` — the parts of a text before and after the first occurrence of a separator
* `joined` — pieces put together with a separator between them
* `holds` — a text occurs in another one
-/

namespace EntityService.Text

/-- The pieces of a text between the occurrences of a separator.  There is one piece more than there
are separators, so the empty text has one piece, the empty one. -/
def pieces (separator : Char) (s : String) : List String :=
  (s.toList.splitOn separator).map String.ofList

/-- The parts of a list before and after the first occurrence of a separator. -/
def cutOnceChars (separator : Char) : List Char → Option (List Char × List Char)
  | [] => none
  | c :: rest =>
    if c = separator then some ([], rest)
    else (cutOnceChars separator rest).map fun (before, after) => (c :: before, after)

/-- The parts of a text before and after the first occurrence of a separator. -/
def cutOnce (separator : Char) (s : String) : Option (String × String) :=
  (cutOnceChars separator s.toList).map fun (before, after) =>
    (String.ofList before, String.ofList after)

/-- The pieces put together with a separator between them. -/
def joined (separator : String) (parts : List String) : String :=
  String.intercalate separator parts

/-- A list of characters occurs in another one. -/
def holdsChars (needle : List Char) : List Char → Bool
  | [] => needle.isEmpty
  | c :: rest => needle.isPrefixOf (c :: rest) || holdsChars needle rest

/-- A text occurs in another one. -/
def holds (s needle : String) : Bool := holdsChars needle.toList s.toList

/-! ### Texts with one separator more -/

/-- What stands after a separator is cut apart on its own. -/
theorem pieces_append (separator : Char) (s t : String) :
    pieces separator (s ++ String.singleton separator ++ t) =
      pieces separator s ++ pieces separator t := by
  simp [pieces, String.toList_append, List.splitOn_append_cons_self]

theorem pieces_of_not_mem {separator : Char} {s : String} (h : separator ∉ s.toList) :
    pieces separator s = [s] := by
  rw [pieces, List.splitOn_eq_singleton h, List.map_singleton, String.ofList_toList]

theorem cutOnceChars_append {separator : Char} {before : List Char} (h : separator ∉ before)
    (after : List Char) :
    cutOnceChars separator (before ++ separator :: after) = some (before, after) := by
  induction before with
  | nil => simp [cutOnceChars]
  | cons c before ih =>
      rw [List.mem_cons, not_or] at h
      rw [List.cons_append, cutOnceChars, if_neg (Ne.symm h.1), ih h.2, Option.map_some]

/-- A text is cut at its first separator. -/
theorem cutOnce_append {separator : Char} {before : String} (h : separator ∉ before.toList)
    (after : String) :
    cutOnce separator (before ++ String.singleton separator ++ after) = some (before, after) := by
  rw [cutOnce]
  simp [cutOnceChars_append h]

/-! ### Texts that are put together -/

theorem toList_joined_singleton (separator part : String) :
    (joined separator [part]).toList = part.toList := by
  simp [joined]

theorem toList_joined_cons_cons (separator part next : String) (rest : List String) :
    (joined separator (part :: next :: rest)).toList =
      part.toList ++ (separator.toList ++ (joined separator (next :: rest)).toList) := by
  simp [joined, String.toList_intercalate]

theorem mem_of_mem_joined {separator : String} {parts : List String} {c : Char}
    (h : c ∈ (joined separator parts).toList) :
    c ∈ separator.toList ∨ ∃ part ∈ parts, c ∈ part.toList := by
  rw [joined, String.toList_intercalate] at h
  induction parts with
  | nil => cases h
  | cons part rest ih =>
      cases rest with
      | nil => exact .inr ⟨part, List.mem_cons_self, by simpa using h⟩
      | cons next rest =>
          rw [List.map_cons, List.map_cons, List.intercalate_cons_cons, List.mem_append,
            List.mem_append, ← List.map_cons] at h
          rcases h with (h | h) | h
          · exact .inr ⟨part, List.mem_cons_self, h⟩
          · exact .inl h
          · exact (ih h).imp_right fun ⟨part, hpart, hc⟩ =>
              ⟨part, List.mem_cons_of_mem _ hpart, hc⟩

/-! ### Pieces and what they are joined to -/

theorem not_mem_of_mem_splitOn {separator : Char} {cs part : List Char}
    (h : part ∈ cs.splitOn separator) : separator ∉ part := by
  induction cs generalizing part with
  | nil => simp_all
  | cons c cs ih =>
      rw [List.splitOn_cons_eq_if_modifyHead] at h
      split at h
      · rcases List.mem_cons.mp h with rfl | hrest
        · exact List.not_mem_nil
        · exact ih hrest
      · next hc =>
          -- the character goes to the first part
          cases hsplit : cs.splitOn separator with
          | nil => exact absurd hsplit (List.splitOn_ne_nil _ _)
          | cons first rest =>
              rw [hsplit] at h ih
              rcases List.mem_cons.mp h with rfl | hrest
              · rw [List.mem_cons, not_or]
                exact ⟨fun heq => hc (heq ▸ beq_self_eq_true c), ih List.mem_cons_self⟩
              · exact ih (List.mem_cons_of_mem _ hrest)

/-- No piece has a separator in it. -/
theorem not_mem_of_mem_pieces {separator : Char} {s piece : String}
    (h : piece ∈ pieces separator s) : separator ∉ piece.toList := by
  obtain ⟨part, hpart, rfl⟩ := List.mem_map.mp h
  rw [String.toList_ofList]
  exact not_mem_of_mem_splitOn hpart

/-- There is one piece more than there are separators. -/
theorem length_pieces (separator : Char) (s : String) :
    (pieces separator s).length = s.toList.count separator + 1 := by
  rw [pieces, List.length_map]
  induction s.toList with
  | nil => simp
  | cons c cs ih =>
      rw [List.splitOn_cons_eq_if_modifyHead, List.count_cons]
      split
      · rw [List.length_cons, ih]
      · rw [List.length_modifyHead, ih, Nat.add_zero]

theorem pieces_ne_nil (separator : Char) (s : String) : pieces separator s ≠ [] := by
  rw [pieces, ne_eq, List.map_eq_nil_iff]
  exact List.splitOn_ne_nil _ _

theorem joined_pieces (separator : Char) (s : String) :
    joined (String.singleton separator) (pieces separator s) = s := by
  apply String.toList_inj.mp
  have hlists : (pieces separator s).map String.toList = s.toList.splitOn separator := by
    simp [pieces, Function.comp_def]
  rw [joined, String.toList_intercalate, hlists, String.toList_singleton, List.intercalate_splitOn]

/-- Texts without separators are the pieces of what they are joined to. -/
theorem pieces_joined {separator : Char} {parts : List String}
    (h : ∀ part ∈ parts, separator ∉ part.toList) (hne : parts ≠ []) :
    pieces separator (joined (String.singleton separator) parts) = parts := by
  have hlists : ∀ part ∈ parts.map String.toList, separator ∉ part := by simpa using h
  rw [pieces, joined, String.toList_intercalate, String.toList_singleton,
    List.splitOn_intercalate separator hlists (by simpa using hne), List.map_map]
  simp [Function.comp_def]

theorem mem_joined_of_mem {separator part : String} {parts : List String} {c : Char}
    (hpart : part ∈ parts) (hc : c ∈ part.toList) : c ∈ (joined separator parts).toList := by
  induction parts with
  | nil => cases hpart
  | cons first rest ih =>
      cases rest with
      | nil =>
          obtain rfl := List.mem_singleton.mp hpart
          rwa [toList_joined_singleton]
      | cons next rest =>
          rw [toList_joined_cons_cons, List.mem_append, List.mem_append]
          rcases List.mem_cons.mp hpart with rfl | hrest
          · exact .inl hc
          · exact .inr (.inr (ih hrest))

theorem mem_of_mem_pieces {separator : Char} {s piece : String} {c : Char}
    (h : piece ∈ pieces separator s) (hc : c ∈ piece.toList) : c ∈ s.toList := by
  rw [← joined_pieces separator s]
  exact mem_joined_of_mem h hc

end EntityService.Text
