import EntityService.Json.Value

/-!
# Statements

A statement as the list of its pieces: words of the language, names and parameters.

## Main definitions

* `Piece`, `Statement` — the pieces and their list
* `Statement.params` — the parameters in their order
* `Statement.text` — the text of a statement
* `listed` — parts with a separator between them

## Design notes

A name is quoted when the statement is written, so no name can end the place it stands in.
A parameter stands at its place without a number.  Numbers are given when the statement is written,
from the left to the right; `Sql.Buffer` builds the same text with the numbers that the values get
in the order in which they are collected.
-/

namespace EntityService.Sql

open EntityService.Json

/-- A piece of a statement: words as they are, a name to be quoted, or a parameter with the type it
is converted to. -/
inductive Piece where
  | words (text : String)
  | name (ident : String)
  | param (value : Value) (pgType : Option String)
  deriving Repr

/-- A statement or a part of one. -/
abbrev Statement := List Piece

/-- A name between double quotes, in which a double quote is written twice. -/
def quotedName (ident : String) : String :=
  "\"" ++ String.ofList (ident.toList.flatMap fun c => if c = '"' then ['"', '"'] else [c]) ++ "\""

namespace Piece

/-- The parameter of a piece. -/
def param? : Piece → Option Value
  | param value _ => some value
  | _ => none

/-- The text of a parameter with its number and the type it is converted to. -/
def placeholder (number : Nat) (pgType : Option String) : String :=
  "$" ++ toString number ++ match pgType with
    | some type => "::" ++ type
    | none => ""

end Piece

namespace Statement

/-- The parameters in their order. -/
def params (s : Statement) : List Value := s.filterMap Piece.param?

/-- The texts of the pieces, of which the first parameter gets the given number. -/
def textsFrom (number : Nat) : Statement → List String
  | [] => []
  | .words text :: rest => text :: textsFrom number rest
  | .name ident :: rest => quotedName ident :: textsFrom number rest
  | .param _ pgType :: rest => Piece.placeholder number pgType :: textsFrom (number + 1) rest

/-- The text of a statement. -/
def text (s : Statement) : String := String.join (textsFrom 1 s)

end Statement

/-- Words as a statement. -/
def words (text : String) : Statement := [.words text]

/-- Parts with a separator between them. -/
def listed (separator : String) (parts : List Statement) : Statement :=
  (parts.intersperse (words separator)).flatten

/-! ### Parts in a list -/

theorem listed_singleton (separator : String) (s : Statement) : listed separator [s] = s := by
  rw [listed, List.intersperse_singleton, List.flatten_singleton]

theorem listed_cons_cons (separator : String) (s t : Statement) (rest : List Statement) :
    listed separator (s :: t :: rest) = s ++ (words separator ++ listed separator (t :: rest)) := by
  rw [listed, List.intersperse_cons_cons, List.flatten_cons, List.flatten_cons, listed]

theorem mem_listed {separator : String} {parts : List Statement} {x : Piece}
    (h : x ∈ listed separator parts) : x = .words separator ∨ ∃ s ∈ parts, x ∈ s := by
  induction parts with
  | nil => cases h
  | cons s rest ih =>
      cases rest with
      | nil =>
          rw [listed_singleton] at h
          exact .inr ⟨s, List.mem_cons_self, h⟩
      | cons t rest =>
          rw [listed_cons_cons, List.mem_append, List.mem_append] at h
          rcases h with h | h | h
          · exact .inr ⟨s, List.mem_cons_self, h⟩
          · exact .inl (List.mem_singleton.mp h)
          · exact (ih h).imp_right fun ⟨part, hpart, hx⟩ =>
              ⟨part, List.mem_cons_of_mem _ hpart, hx⟩

/-- What is read from pieces other than words is read from the parts of a list one by one. -/
theorem filterMap_listed {α : Type} {read : Piece → Option α}
    (h : ∀ text, read (.words text) = none) (separator : String) (parts : List Statement) :
    (listed separator parts).filterMap read = parts.flatMap (·.filterMap read) := by
  induction parts with
  | nil => rfl
  | cons s rest ih =>
      cases rest with
      | nil => rw [listed_singleton, List.flatMap_singleton]
      | cons t rest =>
          have hwords : (words separator).filterMap read = [] := by simp [words, h]
          rw [listed_cons_cons, List.filterMap_append, List.filterMap_append, hwords, ih,
            List.nil_append, ← List.flatMap_cons]

end EntityService.Sql
