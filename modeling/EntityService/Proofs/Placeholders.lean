import EntityService.Proofs.Bookshop
import EntityService.Proofs.Building

/-!
# Placeholders and parameters

The placeholders in the text of a statement are numbered from the left to the right and agree with
the parameters that have been put into its buffer, and these are the values that it has been built
for.

## Main definitions

* `placeholders` — the numbers after dollar signs outside of names

## Main results

* `placeholders_tokensFrom` — the placeholders of a statement are those of its parameters
* `placeholders_match_operands` — placeholders, parameters and values agree

## Design notes

The placeholders are looked for in the text, not among the pieces: a reader takes a dollar sign
outside of names with all digits that follow it.
-/

namespace EntityService.Sql

open EntityService.Json EntityService.Model EntityService.Number EntityService.Query

/-! ### Reading placeholders -/

/-- The numbers of the placeholders in the rest of a text.  The digits after a dollar sign are given
once one has been read. -/
def placeholdersFrom : Option (List Char) → List Token → List Nat
  | none, [] => []
  | none, .char c :: ts => placeholdersFrom (if c = '$' then some [] else none) ts
  | none, _ :: ts => placeholdersFrom none ts
  | some digits, [] => (readDigits? digits).toList
  | some digits, .char c :: ts =>
    if isDigit c then placeholdersFrom (some (digits ++ [c])) ts
    else (readDigits? digits).toList ++ placeholdersFrom (if c = '$' then some [] else none) ts
  | some digits, _ :: ts => (readDigits? digits).toList ++ placeholdersFrom none ts

/-- The numbers of the placeholders outside of names. -/
def placeholders (ts : List Token) : List Nat := placeholdersFrom none ts

/-- Characters among which is no dollar sign. -/
theorem placeholdersFrom_append_of_not_mem {cs : List Char} (h : '$' ∉ cs) (ts : List Token) :
    placeholdersFrom none (cs.map Token.char ++ ts) = placeholdersFrom none ts := by
  induction cs with
  | nil => rfl
  | cons c cs ih =>
      rw [List.mem_cons, not_or] at h
      rw [List.map_cons, List.cons_append, placeholdersFrom, if_neg (Ne.symm h.1), ih h.2]

/-- All digits after a dollar sign are taken. -/
theorem placeholdersFrom_digits {cs : List Char} (h : ∀ c ∈ cs, isDigit c) (digits : List Char)
    (ts : List Token) :
    placeholdersFrom (some digits) (cs.map Token.char ++ ts) =
      placeholdersFrom (some (digits ++ cs)) ts := by
  induction cs generalizing digits with
  | nil => rw [List.append_nil]; rfl
  | cons c cs ih =>
      obtain ⟨hc, hcs⟩ := List.forall_mem_cons.mp h
      rw [List.map_cons, List.cons_append, placeholdersFrom, if_pos hc, ih hcs, List.append_assoc]
      rfl

/-- The digits are at their end when none follows. -/
theorem placeholdersFrom_some {ts : List Token} (h : ∀ c, ts.head? = some (.char c) → ¬isDigit c)
    (digits : List Char) :
    placeholdersFrom (some digits) ts =
      (readDigits? digits).toList ++ placeholdersFrom none ts := by
  cases ts with
  | nil => simp [placeholdersFrom]
  | cons t ts =>
      cases t with
      | char c => simp only [placeholdersFrom, h c rfl, Bool.false_eq_true, if_false]
      | _ => rfl

/-! ### The placeholders of a statement -/

section Types

variable {types : List String}

/-- A statement does not begin with a digit. -/
theorem head?_tokensFrom {s : Statement} (hs : s.Sound types) (number : Nat) :
    ∀ c, (s.tokensFrom number).head? = some (.char c) → ¬isDigit c := by
  cases s with
  | nil => exact nofun
  | cons x s =>
      have hx := hs.plain x List.mem_cons_self
      intro c hc hdigit
      rw [Statement.tokensFrom, List.head?_append] at hc
      cases x with
      | words text =>
          obtain ⟨-, first, hfirst, happart⟩ := hx
          rw [Piece.tokens, List.head?_map, Option.mem_def.mp hfirst] at hc
          cases hc
          rw [happart] at hdigit
          cases hdigit
      | name ident => cases hc
      | param value pgType =>
          have hdollar : ((Piece.param value pgType).tokens number).head? = some (.char '$') := by
            simp [Piece.tokens, Piece.placeholder]
          rw [hdollar] at hc
          cases hc
          exact absurd hdigit (by decide)

/-- The number of a placeholder is followed by nothing or by a type. -/
theorem toList_placeholder (number : Nat) {pgType : Option String}
    (h : ∀ type ∈ pgType, '$' ∉ type.toList) :
    ∃ suffix, (Piece.placeholder number pgType).toList =
        '$' :: (Nat.toDigits 10 number ++ suffix) ∧
      '$' ∉ suffix ∧ ∀ c ∈ suffix.head?, ¬isDigit c := by
  cases pgType with
  | none => exact ⟨[], by simp [Piece.placeholder], nofun, nofun⟩
  | some type =>
      refine ⟨':' :: ':' :: type.toList, by simp [Piece.placeholder], ?_, ?_⟩
      · simpa using h type rfl
      · intro c hc
        obtain rfl := Option.some.inj hc
        decide

/-- A placeholder is read as its number. -/
theorem placeholders_append_placeholder (number : Nat) {pgType : Option String}
    (h : ∀ type ∈ pgType, '$' ∉ type.toList) {ts : List Token}
    (hts : ∀ c, ts.head? = some (.char c) → ¬isDigit c) :
    placeholders ((Piece.placeholder number pgType).toList.map Token.char ++ ts) =
      number :: placeholders ts := by
  obtain ⟨suffix, htext, hdollar, hhead⟩ := toList_placeholder number h
  have hnext : ∀ c, (suffix.map Token.char ++ ts).head? = some (.char c) → ¬isDigit c := by
    cases suffix with
    | nil => exact hts
    | cons first rest =>
        intro c hc
        cases hc
        exact hhead first rfl
  have hdigits : ∀ c ∈ Nat.toDigits 10 number, isDigit c := fun c => isDigit_of_mem_toDigits
  unfold placeholders
  rw [htext, List.map_cons, List.map_append, List.cons_append, placeholdersFrom, if_pos rfl,
    List.append_assoc, placeholdersFrom_digits hdigits, placeholdersFrom_some hnext,
    placeholdersFrom_append_of_not_mem hdollar, List.nil_append, readDigits?_toDigits]
  rfl

/-- The placeholders of a statement are those of its parameters, numbered in order. -/
theorem placeholders_tokensFrom (htypes : ∀ type ∈ types, '$' ∉ type.toList) {s : Statement}
    (hs : s.Sound types) (number : Nat) :
    placeholders (s.tokensFrom number) = List.range' number s.params.length := by
  induction s generalizing number with
  | nil => rfl
  | cons x s ih =>
      have hx := hs.plain x List.mem_cons_self
      have hnext := ih hs.tail (x.next number)
      cases x with
      | words text => exact (placeholdersFrom_append_of_not_mem hx.1.2 _).trans hnext
      | name ident => exact hnext
      | param value pgType =>
          have hparams : (Statement.params (.param value pgType :: s)).length =
              (Statement.params s).length + 1 := rfl
          have htype : ∀ type ∈ pgType, '$' ∉ type.toList := fun type htype =>
            htypes type (hx type htype)
          change placeholders (Statement.tokensFrom (number + 1) s) = List.range' (number + 1) _
            at hnext
          rw [Statement.tokensFrom, hparams, List.range'_succ, ← hnext]
          exact placeholders_append_placeholder number htype (head?_tokensFrom hs.tail _)

end Types

/-! ### Agreement -/

/-- A statement is built for every job that has numbers for its values.  In its text the
placeholders outside of names are the numbers from one to the number of parameters, each once and in
order; the parameters are the values that the job is about.  The statements that are built to read,
count and delete by one plan have the same parameters. -/
theorem placeholders_match_operands :
    (∀ job : Job, (job.render.isSome ↔ job.operands.length < numberBound) ∧
      ((∀ type ∈ pgTypes job.entity, IsBare type) → ∀ b ∈ job.render,
        placeholders (lex b.sql) = List.range' 1 b.params.length ∧ b.params = job.operands)) ∧
      ∀ (m : Model) (p : Plan) (columns : List String) (window : Option (Nat × Nat)),
        (Buffer.select m p columns window).map (·.params) = (Buffer.count p).map (·.params) ∧
          (Buffer.delete p).map (·.params) = (Buffer.count p).map (·.params) := by
  constructor
  · intro job
    rw [render_eq, ← params_statement]
    constructor
    · exact Option.isSome_ite
    · intro htypes b hb
      split at hb
      · obtain rfl := Option.some.inj hb
        refine ⟨?_, rfl⟩
        rw [Job.lex_text fun type htype => (htypes type htype).1]
        exact placeholders_tokensFrom (fun type htype => (htypes type htype).2)
          job.part_statement.sound 1
      · cases hb
  · intro m p columns window
    have hplan {job : Job} (h : job.operands = planOperands p) : job.render.map (·.params) =
        if (planOperands p).length < numberBound then some (planOperands p) else none := by
      rw [render_eq, params_statement, h]
      split <;> rfl
    have hcount := @hplan (.count p) rfl
    exact ⟨(@hplan (.select m p columns window) rfl).trans hcount.symm,
      (@hplan (.delete p) rfl).trans hcount.symm⟩

/-- The books of the bookshop with the types of their columns. -/
def typedBooks : Entity :=
  { Bookshop.books with
    columns := [⟨"id", false, true, "bigint", none⟩, ⟨"title", false, false, "text", none⟩,
      ⟨"author_id", false, false, "bigint", none⟩, ⟨"is_active", false, false, "integer", none⟩,
      ⟨"updated_at", false, true, "timestamptz", none⟩] }

/-- A change of a book: its author, its flag and its title are written, and its key comes last. -/
theorem placeholders_match_operands_book :
    (∀ type ∈ pgTypes typedBooks, IsBare type) ∧
      ∃ b, Buffer.update typedBooks (.string "3") (Bookshop.book 3 2 "Matter") true = some b ∧
        placeholders (lex b.sql) = [1, 2, 3, 4] ∧
        b.params = [.ofInt 2, .ofInt 1, .string "Matter", .string "3"] := by
  have htypes : ∀ type ∈ pgTypes typedBooks, IsBare type := by decide
  have hoperands :
      (Job.update typedBooks (.string "3") (Bookshop.book 3 2 "Matter") true).operands =
      [.ofInt 2, .ofInt 1, .string "Matter", .string "3"] := by rfl
  obtain ⟨hsome, hbuilt⟩ := placeholders_match_operands.1
    (.update typedBooks (.string "3") (Bookshop.book 3 2 "Matter") true)
  have hfew : [Value.ofInt 2, .ofInt 1, .string "Matter", .string "3"].length <
      numberBound := by
    decide
  obtain ⟨b, hb⟩ := Option.isSome_iff_exists.mp (hsome.mpr (hoperands ▸ hfew))
  obtain ⟨hnumbers, hparams⟩ := hbuilt htypes b hb
  rw [hoperands] at hparams
  rw [hparams] at hnumbers
  exact ⟨htypes, b, hb, hnumbers, hparams⟩

end EntityService.Sql
