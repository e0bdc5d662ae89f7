import EntityService.Proofs.Tokens

/-!
# Statements that agree

Two statements that differ in the contents of some names and in the values of parameters, and
nowhere else.

## Main definitions

* `AgreeBut` — tokens that agree but for the contents of some names
* `Statement.AgreeBut`, `Statement.AgreeAllBut` — the same for pieces and for parts of statements

## Main results

* `Statement.AgreeBut.lex_text` — pieces that agree are read as tokens that agree
* `Statement.AgreeBut.text_eq` — pieces that differ in values only have the same text

## Design notes

The names in which two statements differ are counted along, on the left and on the right.  Values
do not occur in the relation, since the text of a parameter is its number.
-/

namespace EntityService.Sql

open EntityService.Json

/-! ### Tokens and pieces that agree -/

/-- Tokens that agree but for the contents of some names.  These contents are given in order, first
those on the left and then those on the right. -/
inductive AgreeBut : List Token → List Token → List String → List String → Prop where
  | nil : AgreeBut [] [] [] []
  | same (t : Token) {ts us : List Token} {as bs : List String} (h : AgreeBut ts us as bs) :
      AgreeBut (t :: ts) (t :: us) as bs
  | name (a b : String) {ts us : List Token} {as bs : List String} (h : AgreeBut ts us as bs) :
      AgreeBut (.name a :: ts) (.name b :: us) (a :: as) (b :: bs)

theorem AgreeBut.append_left {ts us : List Token} {as bs : List String} (h : AgreeBut ts us as bs)
    (before : List Token) : AgreeBut (before ++ ts) (before ++ us) as bs := by
  induction before with
  | nil => exact h
  | cons t before ih => exact .same t ih

namespace Statement

/-- Pieces that agree but for some names and for the values of parameters. -/
inductive AgreeBut : Statement → Statement → List String → List String → Prop where
  | nil : AgreeBut [] [] [] []
  | same (x : Piece) {s t : Statement} {as bs : List String} (h : AgreeBut s t as bs) :
      AgreeBut (x :: s) (x :: t) as bs
  | name (a b : String) {s t : Statement} {as bs : List String} (h : AgreeBut s t as bs) :
      AgreeBut (.name a :: s) (.name b :: t) (a :: as) (b :: bs)
  | param (v w : Value) (pgType : Option String) {s t : Statement} {as bs : List String}
      (h : AgreeBut s t as bs) : AgreeBut (.param v pgType :: s) (.param w pgType :: t) as bs

namespace AgreeBut

theorem refl (s : Statement) : AgreeBut s s [] [] := by
  induction s with
  | nil => exact .nil
  | cons x s ih => exact .same x ih

theorem append {s t s' t' : Statement} {as bs as' bs' : List String} (h : AgreeBut s t as bs)
    (h' : AgreeBut s' t' as' bs') : AgreeBut (s ++ s') (t ++ t') (as ++ as') (bs ++ bs') := by
  induction h with
  | nil => exact h'
  | same x _ ih => exact .same x ih
  | name a b _ ih => exact .name a b ih
  | param v w pgType _ ih => exact .param v w pgType ih

/-- What follows differs in values only. -/
theorem append_values {s t s' t' : Statement} {as bs : List String} (h : AgreeBut s t as bs)
    (h' : AgreeBut s' t' [] []) : AgreeBut (s ++ s') (t ++ t') as bs := by
  have happend := h.append h'
  rwa [List.append_nil, List.append_nil] at happend

theorem append_same {s t : Statement} {as bs : List String} (h : AgreeBut s t as bs)
    (after : Statement) : AgreeBut (s ++ after) (t ++ after) as bs :=
  h.append_values (refl after)

theorem same_append {s t : Statement} {as bs : List String} (h : AgreeBut s t as bs)
    (before : Statement) : AgreeBut (before ++ s) (before ++ t) as bs :=
  (refl before).append h

/-- Pieces that agree stand for tokens that agree. -/
theorem tokensFrom {s t : Statement} {as bs : List String} (h : AgreeBut s t as bs)
    (number : Nat) : Sql.AgreeBut (s.tokensFrom number) (t.tokensFrom number) as bs := by
  induction h generalizing number with
  | nil => exact .nil
  | same x _ ih => exact (ih _).append_left _
  | name a b _ ih => exact .name a b (ih number)
  | param v w pgType _ ih => exact (ih (number + 1)).append_left _

/-- Pieces that differ in no name have the same characters, whatever the values are. -/
theorem charsFrom_eq {s t : Statement} {as bs : List String} (h : AgreeBut s t as bs)
    (heq : as = bs) (number : Nat) : charsFrom number s = charsFrom number t := by
  induction h generalizing number with
  | nil => rfl
  | same x _ ih => exact congrArg (x.chars number ++ ·) (ih heq _)
  | name a b _ ih =>
      obtain ⟨rfl, hrest⟩ := List.cons_eq_cons.mp heq
      exact congrArg ((quotedName a).toList ++ ·) (ih hrest number)
  | param v w pgType _ ih =>
      exact congrArg ((Piece.placeholder number pgType).toList ++ ·) (ih heq (number + 1))

theorem text_eq {s t : Statement} {as : List String} (h : AgreeBut s t as as) :
    s.text = t.text := by
  rw [← String.toList_inj, toList_text, toList_text, h.charsFrom_eq rfl]

/-- Sound pieces that agree are read as tokens that agree. -/
theorem lex_text {types : List String} (htypes : ∀ type ∈ types, '"' ∉ type.toList)
    {s t : Statement} {as bs : List String} (h : AgreeBut s t as bs) (hs : s.Sound types)
    (ht : t.Sound types) : Sql.AgreeBut (lex s.text) (lex t.text) as bs := by
  rw [Statement.lex_text htypes hs, Statement.lex_text htypes ht]
  exact h.tokensFrom 1

end AgreeBut

/-- Parts that agree one by one. -/
inductive AgreeAllBut : List Statement → List Statement → List String → List String → Prop where
  | nil : AgreeAllBut [] [] [] []
  | cons {s t : Statement} {ss ts : List Statement} {as bs as' bs' : List String}
      (h : AgreeBut s t as bs) (hrest : AgreeAllBut ss ts as' bs') :
      AgreeAllBut (s :: ss) (t :: ts) (as ++ as') (bs ++ bs')

namespace AgreeAllBut

theorem append_same {ss ts : List Statement} {as bs : List String} (h : AgreeAllBut ss ts as bs)
    (after : List Statement) : AgreeAllBut (ss ++ after) (ts ++ after) as bs := by
  induction h with
  | nil =>
      induction after with
      | nil => exact .nil
      | cons s after ih => exact .cons (.refl s) ih
  | cons hs _ ih => exact .cons hs ih

/-- Parts that are made from elements which are related one by one. -/
theorem map {α : Type} {R : α → α → Prop} (part : α → Statement) (places : α → List String)
    (h : ∀ x y, R x y → AgreeBut (part x) (part y) (places x) (places y)) {xs ys : List α}
    (hxs : List.Forall₂ R xs ys) :
    AgreeAllBut (xs.map part) (ys.map part) (xs.flatMap places) (ys.flatMap places) := by
  induction hxs with
  | nil => exact .nil
  | cons hxy _ ih =>
      rw [List.flatMap_cons, List.flatMap_cons]
      exact .cons (h _ _ hxy) ih

theorem listed (separator : String) {ss ts : List Statement} {as bs : List String}
    (h : AgreeAllBut ss ts as bs) : AgreeBut (listed separator ss) (listed separator ts) as bs := by
  induction h with
  | nil => exact .nil
  | cons hs hrest ih =>
      cases hrest with
      | nil =>
          rw [listed_singleton, listed_singleton, List.append_nil, List.append_nil]
          exact hs
      | cons ht hrest =>
          rw [listed_cons_cons, listed_cons_cons]
          exact hs.append (ih.same_append (words separator))

end AgreeAllBut

end Statement

end EntityService.Sql
