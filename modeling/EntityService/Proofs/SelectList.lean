import EntityService.Proofs.Tokens

/-!
# What a query gives

A query is read from its text: the entries of its list of columns, with the queries among them, and
what stands after that list.

## Main definitions

* `Entry` — a column, a star or a query in a list of columns
* `Reader`, `Reader.step` — a reader of tokens that knows which parentheses are open
* `readSelect` — the outermost query of a text
* `View`, `View.ofEntries` — what is taken from entries, and left out
* `selectItems`, `selectOutputs`, `readQuery` — three views of the outermost query

## Main results

* `View.ofEntries_append`, `View.ofEntries_map` — a view goes entry by entry

## Design notes

The reader takes the text as a database does: names between double quotes are no words, a
parenthesis begins something of its own, and a list of columns ends at the word `FROM`.  A name
after the word `AS` is an entry; it is that of a query if one in parentheses stands before it.  What
comes after the list is kept as it is.  A query that only wraps another one, without columns of its
own, stands for the inner one.

The text is read once, into entries that keep all that is known.  Statements about names of columns,
about stars or about tables each look at them through a view of their own.
-/

namespace EntityService.Sql

/-! ### Entries -/

/-- What stands in a list of columns: a column under its name, with the name that it has in its
table, a star, or a query under its name, with its entries and what stands after these outside of
parentheses. -/
inductive Entry where
  | column (source : Option String) (name : String)
  | star
  | query (name : String) (entries : List Entry) (clauses : List Token)
  deriving Repr

/-- An entry without a name. -/
def Entry.isStar : Entry → Bool
  | star => true
  | _ => false

/-- A query: the entries of its list of columns and what stands after it. -/
structure Select where
  entries : List Entry
  clauses : List Token
  deriving Repr

/-! ### The reader -/

/-- What is known of a query in parentheses that are still open: whether its list of columns is
still read, the entries so far, the name that stands for a column of a table as long as no entry has
taken it, what stands after the list, and the query in the parentheses closed last, as long as it
has got no name. -/
structure Frame where
  listing : Bool := true
  entries : List Entry := []
  column : Option String := none
  clauses : List Token := []
  inner : Option Select := none
  deriving Repr

namespace Frame

/-- An entry under a name. -/
def emit (f : Frame) (ident : String) : Frame :=
  { f with
    entries := f.entries ++ [match f.inner with
      | some query => .query ident query.entries query.clauses
      | none => .column f.column ident]
    column := none
    inner := none }

/-- The query in parentheses, if there is one: a query that it wraps, or what has been read itself
once its list of columns has ended. -/
def result (f : Frame) : Option Select :=
  let wrapped := if f.entries.all Entry.isStar then f.inner else none
  wrapped.or (if f.listing then none else some ⟨f.entries, f.clauses⟩)

end Frame

/-- A reader of tokens: the characters of the list of columns since the last name or parenthesis,
the latest first, the innermost query and those around it. -/
structure Reader where
  recent : List Char := []
  top : Frame := {}
  below : List Frame := []
  deriving Repr

namespace Reader

/-- The words that end a list of columns, and that stand before a name of an entry, backwards. -/
def fromWord : List Char := [' ', 'M', 'O', 'R', 'F', ' ']

@[inherit_doc fromWord]
def asWord : List Char := [' ', 'S', 'A', ' ']

/-- The word that a list of columns comes after, backwards. -/
def selectWord : List Char := [' ', 'T', 'C', 'E', 'L', 'E', 'S']

/-- A star stands for all columns after a dot or a blank. -/
def isStar (c : Char) (recent : List Char) : Bool :=
  c == '*' && recent.head?.any fun before => before == '.' || before == ' '

/-- Read one token of a list of columns. -/
def list (r : Reader) : Token → Reader
  | .char c =>
    { r with
      recent := c :: r.recent
      top := { r.top with
        listing := !fromWord.isPrefixOf (c :: r.recent)
        entries := if isStar c r.recent then r.top.entries ++ [.star] else r.top.entries } }
  | .name ident =>
    { r with
      recent := []
      top := if asWord.isPrefixOf r.recent then r.top.emit ident
        else { r.top with column := some ident } }
  | .unclosed _ => r

/-- Read one token. -/
def step (r : Reader) : Token → Reader
  | .char '(' => { top := {}, below := r.top :: r.below }
  | .char ')' =>
    match r.below with
    | [] => { r with recent := [] }
    | parent :: below => { top := { parent with inner := r.top.result }, below }
  | t =>
    if r.top.listing then r.list t
    else { r with top := { r.top with clauses := r.top.clauses ++ [t] } }

/-- The outermost query. -/
def bottom (r : Reader) : Frame := (r.top :: r.below).getLast (List.cons_ne_nil _ _)

/-- A token other than a parenthesis. -/
theorem step_of_ne {t : Token} (hopen : t ≠ .char '(') (hclose : t ≠ .char ')') (r : Reader) :
    r.step t =
      if r.top.listing then r.list t
      else { r with top := { r.top with clauses := r.top.clauses ++ [t] } } := by
  unfold step
  split
  · exact absurd rfl hopen
  · exact absurd rfl hclose
  · rfl

end Reader

/-- The outermost query of a text. -/
def readSelect (text : String) : Select :=
  let query := ((lex text).foldl Reader.step {}).bottom
  ⟨query.entries, query.clauses⟩

/-! ### Views -/

/-- What an entry is taken for.  For a query, what its own entries are taken for is known. -/
structure View (α : Type) where
  column : Option String → String → List α
  star : List α
  query : String → List α → List Token → List α

namespace View

variable {α : Type} (v : View α)

mutual
/-- What an entry is taken for. -/
def ofEntry : Entry → List α
  | .column source name => v.column source name
  | .star => v.star
  | .query name entries clauses => v.query name (ofEntries entries) clauses

/-- What several entries are taken for. -/
def ofEntries : List Entry → List α
  | [] => []
  | entry :: rest => ofEntry entry ++ ofEntries rest
end

theorem ofEntries_append (entries others : List Entry) :
    v.ofEntries (entries ++ others) = v.ofEntries entries ++ v.ofEntries others := by
  induction entries with
  | nil => simp only [ofEntries, List.nil_append]
  | cons entry rest ih => rw [List.cons_append, ofEntries, ofEntries, ih, List.append_assoc]

/-- Entries that are taken for one thing each. -/
theorem ofEntries_map {β : Type} {entry : β → Entry} {item : β → α}
    (h : ∀ x, v.ofEntry (entry x) = [item x]) (xs : List β) :
    v.ofEntries (xs.map entry) = xs.map item := by
  induction xs with
  | nil => rw [List.map_nil, ofEntries, List.map_nil]
  | cons x xs ih =>
      rw [List.map_cons, ofEntries, h, ih, List.map_cons]
      rfl

theorem ofEntries_singleton (entry : Entry) : v.ofEntries [entry] = v.ofEntry entry := by
  rw [ofEntries, ofEntries, List.append_nil]

/-- Entries that are taken for nothing. -/
theorem ofEntries_eq_nil {entries : List Entry} (h : ∀ entry ∈ entries, v.ofEntry entry = []) :
    v.ofEntries entries = [] := by
  induction entries with
  | nil => rw [ofEntries]
  | cons entry rest ih =>
      obtain ⟨hentry, hrest⟩ := List.forall_mem_cons.mp h
      rw [ofEntries, hentry, ih hrest]
      rfl

end View

/-- An item of a list of columns: a column under its name, with the name that it has in its table, a
star, or a subquery under its name. -/
inductive Item where
  | column (source : Option String) (name : String)
  | star
  | subquery (name : String) (items : List Item)
  deriving Repr

/-- Entries as items, whatever stands after the lists of columns. -/
def Item.view : View Item where
  column source name := [.column source name]
  star := [.star]
  query name items _ := [.subquery name items]

/-- The items of a query, read from its text. -/
def selectItems (text : String) : List Item := Item.view.ofEntries (readSelect text).entries

/-- A column of a result under its name, or a subquery under its name with its own outputs. -/
inductive Output where
  | column (name : String)
  | subquery (name : String) (outputs : List Output)
  deriving Repr

/-- The name of an output. -/
def Output.name : Output → String
  | column name => name
  | subquery name _ => name

/-- The outputs of entries.  A star has none by name. -/
def Output.view : View Output where
  column _ name := [.column name]
  star := []
  query name outputs _ := [.subquery name outputs]

/-- The outputs of a query, read from its text. -/
def selectOutputs (text : String) : List Output := Output.view.ofEntries (readSelect text).entries

/-- A query under a name in a list of columns: what stands after the word `FROM` outside of
parentheses, and the queries in its own list of columns. -/
inductive Scope where
  | node (name : String) (source : List Token) (inner : List Scope)
  deriving Repr

/-- The queries among entries. -/
def Scope.view : View Scope where
  column _ _ := []
  star := []
  query name inner source := [.node name source inner]

/-- The outermost query without the columns of its own: what stands after the word `FROM` outside of
parentheses, and the queries in its list of columns. -/
structure Outermost where
  source : List Token
  inner : List Scope
  deriving Repr

/-- The outermost query of a text. -/
def readQuery (text : String) : Outermost :=
  { source := (readSelect text).clauses
    inner := Scope.view.ofEntries (readSelect text).entries }

theorem source_readQuery (text : String) : (readQuery text).source = (readSelect text).clauses :=
  rfl

theorem inner_readQuery (text : String) :
    (readQuery text).inner = Scope.view.ofEntries (readSelect text).entries := rfl

end EntityService.Sql
