import EntityService.Number.Numeral
import EntityService.Sql.Statement
import Mathlib.Data.List.Chain

/-!
# Texts of statements as tokens

What a database reads of the text of a statement: names between double quotes, and single characters
outside of them.

## Main definitions

* `Token`, `lex` — the tokens of a text
* `Statement.tokens` — the tokens that the pieces of a statement stand for
* `Piece.IsPlain` — words that do not interfere with names and parameters, and types of a list
* `Statement.Sound` — plain pieces, no two names next to each other

## Main results

* `lexFrom_quotedName` — a quoted name is read as one token with the name as it was
* `lexFrom_charsFrom`, `lex_text` — the text of a sound statement is read piece by piece

## Design notes

A double quote that stands in a name is written twice, and read as one.  What a name is followed by
therefore must not begin with a double quote: this is all that `Statement.Sound` asks of names.
-/

namespace EntityService.Sql

open EntityService.Number

/-- A token: a quoted name with its content, a character outside of quotes, or the content of a
name that is not closed. -/
inductive Token where
  | name (ident : String)
  | char (c : Char)
  | unclosed (ident : String)
  deriving DecidableEq, Repr

/-- Where a reader is: outside of names, inside of one, or after a double quote inside of one.  The
characters of the name so far are kept in reverse order. -/
inductive Position where
  | outside
  | inside (done : List Char)
  | closing (done : List Char)
  deriving DecidableEq, Repr

/-- The tokens of the rest of a text. -/
def lexFrom : Position → List Char → List Token
  | .outside, [] => []
  | .outside, c :: cs =>
    if c = '"' then lexFrom (.inside []) cs else .char c :: lexFrom .outside cs
  | .inside done, [] => [.unclosed (String.ofList done.reverse)]
  | .inside done, c :: cs =>
    if c = '"' then lexFrom (.closing done) cs else lexFrom (.inside (c :: done)) cs
  | .closing done, [] => [.name (String.ofList done.reverse)]
  | .closing done, c :: cs =>
    if c = '"' then lexFrom (.inside ('"' :: done)) cs
    else .name (String.ofList done.reverse) :: .char c :: lexFrom .outside cs

/-- The tokens of a text. -/
def lex (s : String) : List Token := lexFrom .outside s.toList

/-! ### Words and names -/

/-- Characters outside of names, none of which is a double quote. -/
theorem lexFrom_append_of_not_mem {cs : List Char} (h : '"' ∉ cs) (rest : List Char) :
    lexFrom .outside (cs ++ rest) = cs.map Token.char ++ lexFrom .outside rest := by
  induction cs with
  | nil => rfl
  | cons c cs ih =>
      rw [List.mem_cons, not_or] at h
      rw [List.cons_append, lexFrom, if_neg (Ne.symm h.1), ih h.2, List.map_cons, List.cons_append]

/-- The characters of a name as they are written between quotes. -/
def doubled (cs : List Char) : List Char := cs.flatMap fun c => if c = '"' then ['"', '"'] else [c]

/-- Inside of a name, doubled characters are read as they were. -/
theorem lexFrom_inside (done cs rest : List Char) :
    lexFrom (.inside done) (doubled cs ++ '"' :: rest) =
      lexFrom (.closing (cs.reverse ++ done)) rest := by
  induction cs generalizing done with
  | nil =>
      change lexFrom (.inside done) ('"' :: rest) = _
      rw [lexFrom, if_pos rfl]
      rfl
  | cons c cs ih =>
      rw [doubled, List.flatMap_cons, List.reverse_cons, List.append_assoc, List.append_assoc]
      by_cases hquote : c = '"'
      · subst hquote
        rw [if_pos rfl, List.cons_append, List.cons_append, List.nil_append, lexFrom, if_pos rfl,
          lexFrom, if_pos rfl]
        exact ih _
      · rw [if_neg hquote, List.cons_append, List.nil_append, lexFrom, if_neg hquote]
        exact ih _

/-- A name is at its end when no double quote follows. -/
theorem lexFrom_closing {rest : List Char} (h : rest.head? ≠ some '"') (done : List Char) :
    lexFrom (.closing done) rest =
      .name (String.ofList done.reverse) :: lexFrom .outside rest := by
  cases rest with
  | nil => rfl
  | cons c cs =>
      have hquote : c ≠ '"' := fun heq => h (congrArg some heq)
      rw [lexFrom, if_neg hquote, lexFrom, if_neg hquote]

/-- A quoted name is read as one token with the name as it was. -/
theorem lexFrom_quotedName {rest : List Char} (h : rest.head? ≠ some '"') (ident : String) :
    lexFrom .outside ((quotedName ident).toList ++ rest) =
      .name ident :: lexFrom .outside rest := by
  have htext : (quotedName ident).toList ++ rest =
      '"' :: (doubled ident.toList ++ '"' :: rest) := by
    simp [quotedName, doubled]
  rw [htext, lexFrom, if_pos rfl, lexFrom_inside, lexFrom_closing h, List.append_nil,
    List.reverse_reverse, String.ofList_toList]

/-! ### Statements -/

/-- A text without double quotes and dollar signs. -/
def IsBare (text : String) : Prop := '"' ∉ text.toList ∧ '$' ∉ text.toList

instance (text : String) : Decidable (IsBare text) := inferInstanceAs (Decidable (_ ∧ _))

/-- A text that can stand after a name or a parameter: it does not begin with a digit. -/
def IsApart (text : String) : Prop := ∃ c ∈ text.toList.head?, isDigit c = false

instance (text : String) : Decidable (IsApart text) := by
  unfold IsApart
  cases text.toList.head? with
  | none => exact isFalse (by simp)
  | some c => exact decidable_of_iff (isDigit c = false) (by simp)

/-- Words that a statement can be made of. -/
def IsWords (text : String) : Prop := IsBare text ∧ IsApart text

instance (text : String) : Decidable (IsWords text) := inferInstanceAs (Decidable (_ ∧ _))

namespace Piece

/-- A name. -/
def isName : Piece → Bool
  | name _ => true
  | _ => false

/-- Words that are bare and begin with no digit, a name, or a parameter whose type is among given
ones. -/
def IsPlain (types : List String) : Piece → Prop
  | words text => IsWords text
  | name _ => True
  | param _ pgType => ∀ type ∈ pgType, type ∈ types

/-- The text of a piece, with a number in case that it is a parameter. -/
def chars (number : Nat) : Piece → List Char
  | words text => text.toList
  | name ident => (quotedName ident).toList
  | param _ pgType => (placeholder number pgType).toList

/-- The tokens that a piece stands for. -/
def tokens (number : Nat) : Piece → List Token
  | words text => text.toList.map .char
  | name ident => [.name ident]
  | param _ pgType => (placeholder number pgType).toList.map .char

/-- The number of the next parameter after a piece. -/
def next (number : Nat) : Piece → Nat
  | param _ _ => number + 1
  | _ => number

end Piece

namespace Statement

/-- The characters of a statement of which the first parameter gets the given number. -/
def charsFrom (number : Nat) : Statement → List Char
  | [] => []
  | x :: rest => x.chars number ++ charsFrom (x.next number) rest

/-- The tokens that a statement stands for. -/
def tokensFrom (number : Nat) : Statement → List Token
  | [] => []
  | x :: rest => x.tokens number ++ tokensFrom (x.next number) rest

/-- The characters of a beginning of a statement come first. -/
theorem charsFrom_append (number : Nat) (s t : Statement) :
    ∃ next, charsFrom number (s ++ t) = charsFrom number s ++ charsFrom next t := by
  induction s generalizing number with
  | nil => exact ⟨number, rfl⟩
  | cons x s ih =>
      obtain ⟨next, hnext⟩ := ih (x.next number)
      refine ⟨next, ?_⟩
      rw [List.cons_append, charsFrom, charsFrom, hnext, List.append_assoc]

/-- Without parameters the number of the next one does not matter. -/
theorem tokensFrom_eq_flatMap {s : Statement} (h : s.params = []) (number : Nat) :
    tokensFrom number s = s.flatMap (Piece.tokens number) := by
  induction s with
  | nil => rfl
  | cons x s ih =>
      cases x with
      | param value pgType => cases h
      | _ => exact congrArg _ (ih h)

/-- The tokens that a whole statement stands for. -/
def tokens (s : Statement) : List Token := tokensFrom 1 s

theorem toList_text (s : Statement) : s.text.toList = charsFrom 1 s := by
  have htexts (number : Nat) (s : Statement) :
      (textsFrom number s).flatMap String.toList = charsFrom number s := by
    induction s generalizing number with
    | nil => rfl
    | cons x rest ih => cases x <;> exact congrArg _ (ih _)
  rw [text, String.toList_join, htexts]

/-- Each piece is plain, and no two names stand next to each other. -/
structure Sound (types : List String) (s : Statement) : Prop where
  plain : ∀ x ∈ s, x.IsPlain types
  apart : s.IsChain fun x y => ¬(x.isName ∧ y.isName)

/-- A statement that does not begin with a name. -/
def Opens (s : Statement) : Prop := ∀ x ∈ s.head?, x.isName = false

/-- A statement that does not end in a name. -/
def Closes (s : Statement) : Prop := ∀ x ∈ s.getLast?, x.isName = false

theorem Sound.tail {types : List String} {x : Piece} {s : Statement} (h : Sound types (x :: s)) :
    Sound types s :=
  ⟨fun y hy => h.plain y (List.mem_cons_of_mem _ hy), (List.isChain_cons.mp h.apart).2⟩

end Statement

/-! ### The text of a sound statement -/

section Types

variable {types : List String} (htypes : ∀ type ∈ types, '"' ∉ type.toList)

include htypes

namespace Piece

theorem not_mem_placeholder {pgType : Option String} (h : ∀ type ∈ pgType, type ∈ types)
    (number : Nat) : '"' ∉ (placeholder number pgType).toList := by
  have hdigits : '"' ∉ Nat.toDigits 10 number := fun hmem =>
    absurd (isDigit_of_mem_toDigits hmem) (by decide)
  cases pgType with
  | none => simpa [placeholder] using hdigits
  | some type => simpa [placeholder] using ⟨hdigits, htypes type (h type rfl)⟩

/-- The text of a plain piece other than a name has no double quote, and is not empty. -/
theorem IsPlain.chars_eq {x : Piece} (h : x.IsPlain types) (hname : x.isName = false)
    (number : Nat) :
    '"' ∉ x.chars number ∧ x.chars number ≠ [] ∧
      x.tokens number = (x.chars number).map Token.char := by
  cases x with
  | words text =>
      obtain ⟨⟨hquote, -⟩, c, hc, -⟩ := h
      refine ⟨hquote, ?_, rfl⟩
      rintro hnil
      change text.toList = [] at hnil
      rw [hnil] at hc
      cases hc
  | name ident => cases hname
  | param value pgType =>
      refine ⟨not_mem_placeholder htypes h number, ?_, rfl⟩
      simp [chars, placeholder]

end Piece

namespace Statement

/-- What follows a name begins with no double quote. -/
theorem head?_charsFrom_ne {s : Statement} (hs : s.Sound types) (hopens : s.Opens)
    {rest : List Char}
    (hrest : s = [] → rest.head? ≠ some '"') (number : Nat) :
    (charsFrom number s ++ rest).head? ≠ some '"' := by
  cases s with
  | nil => exact hrest rfl
  | cons x s =>
      obtain ⟨hquote, hne, -⟩ :=
        (hs.plain x List.mem_cons_self).chars_eq htypes (hopens x rfl) number
      obtain ⟨c, cs, hcs⟩ := List.exists_cons_of_ne_nil hne
      rw [hcs] at hquote
      rw [charsFrom, hcs]
      rintro heq
      exact hquote (Option.some.inj heq ▸ List.mem_cons_self)

/-- The text of a sound statement is read piece by piece, whatever follows it; only if it ends in a
name no double quote may follow. -/
theorem lexFrom_charsFrom {s : Statement} (hs : s.Sound types) {rest : List Char}
    (hrest : s.Closes ∨ rest.head? ≠ some '"') (number : Nat) :
    lexFrom .outside (charsFrom number s ++ rest) =
      tokensFrom number s ++ lexFrom .outside rest := by
  induction s generalizing number with
  | nil => rfl
  | cons x s ih =>
      have hcloses : Closes s ∨ rest.head? ≠ some '"' := by
        refine hrest.imp_left fun h y hy => h y ?_
        rw [List.getLast?_cons, Option.mem_def.mp hy]
        rfl
      have hnext := ih hs.tail hcloses (x.next number)
      rw [charsFrom, tokensFrom, List.append_assoc, List.append_assoc, ← hnext]
      cases hname : x.isName with
      | false =>
          obtain ⟨hquote, -, htokens⟩ :=
            (hs.plain x List.mem_cons_self).chars_eq htypes hname number
          rw [lexFrom_append_of_not_mem hquote, htokens]
      | true =>
          have hx : ∃ ident, x = .name ident := by
            cases x with
            | name ident => exact ⟨ident, rfl⟩
            | _ => cases hname
          obtain ⟨ident, rfl⟩ := hx
          have hopens : Opens s := by
            intro y hy
            have happart := (List.isChain_cons.mp hs.apart).1 y hy
            exact eq_false_of_ne_true fun hyname => happart ⟨rfl, hyname⟩
          refine lexFrom_quotedName (head?_charsFrom_ne htypes hs.tail hopens ?_ _) ident
          rintro rfl
          exact hrest.resolve_left fun h => absurd (h (.name ident) rfl) (by simp [Piece.isName])

/-- The text of a sound statement is read piece by piece. -/
theorem lex_text {s : Statement} (hs : s.Sound types) : lex s.text = s.tokens := by
  have h := @lexFrom_charsFrom types htypes s hs [] (.inr nofun) 1
  rw [List.append_nil, lexFrom, List.append_nil] at h
  rw [lex, toList_text, h, tokens]

end Statement

end Types

/-- A beginning of a statement that has no types and ends in words is read piece by piece, whatever
stands after it. -/
theorem Statement.lex_text_append {s : Statement} (hs : s.Sound []) (hcloses : s.Closes)
    (t : Statement) : ∃ rest, lex (Statement.text (s ++ t)) = s.tokensFrom 1 ++ rest := by
  obtain ⟨next, hchars⟩ := charsFrom_append 1 s t
  have hlex := @lexFrom_charsFrom [] nofun s hs (charsFrom next t) (.inl hcloses) 1
  exact ⟨_, by rw [lex, toList_text, hchars, hlex]⟩

end EntityService.Sql
