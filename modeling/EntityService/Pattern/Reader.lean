import EntityService.Number.Numeral
import EntityService.Pattern.Escape

/-!
# Reading patterns

Texts as patterns.

## Main definitions

* `readClass?` — the set of a class between brackets
* `readBody?` — the pattern up to a closing parenthesis or the end
* `Pattern.read?` — the pattern a text denotes

## Design notes

Which of several occurrences is found first is of no concern here, so lazy and greedy repetition are
the same, and groups only put parts together.  A pattern that could become very long by its
repetitions is refused.
-/

namespace EntityService.Pattern

open EntityService.Number EntityService.Text

/-! ### Classes -/

/-- The set of a class whose members are known. -/
def finishedSet? (flags : Flags) (negated : Bool) (s : CharSet) : Option CharSet :=
  if negated && !flags.unicode then none
  else
    let whole := if flags.ignoreCase then s.upToCase flags.unicode else s
    some (CharSet.negatedIf negated whole)

/-- A named class between colons and what follows its bracket. -/
def readNamedClass? : List Char → Option (CharSet × List Char)
  | ':' :: rest =>
    let (negated, cs) := match rest with
      | '^' :: rest => (true, rest)
      | rest => (false, rest)
    match cs.span (· ≠ ':') with
    | (name, ':' :: ']' :: after) =>
      (classOfWord? (String.ofList name)).map fun s => (CharSet.negatedIf negated s, after)
    | _ => none
  | _ => none

/-- One character or escape in a class. -/
def readClassAtom? (flags : Flags) : List Char → Option (Atom × List Char)
  | [] => none
  | '\\' :: rest => readEscape? flags rest
  | c :: rest => some (.literal c, rest)

/-- The set of an atom in a class. -/
def atomSet? (flags : Flags) : Atom → Option CharSet
  | .literal c => if flags.unicode || c.toNat < 0x80 then some (CharSet.one c) else none
  | .set s => some s
  | .place _ => none

/-- The set from one atom to another. -/
def rangeSet? (flags : Flags) : Atom → Atom → Option CharSet
  | .literal c, .literal d =>
    if c ≤ d && (flags.unicode || d.toNat < 0x80) then some (CharSet.span c d) else none
  | _, _ => none

/-- A hyphen does not make a range before the end of a class or before another hyphen. -/
def endsRange (flags : Flags) (cs : List Char) : Bool :=
  match skipLayout flags cs with
  | c :: _ => c == ']' || c == '-'
  | [] => false

/-- A character, an escape or a range in a class. -/
def readRange? (flags : Flags) (cs : List Char) : Option (CharSet × List Char) := do
  let (first, after) ← readClassAtom? flags cs
  match skipLayout flags after with
  | '-' :: rest =>
    if endsRange flags rest then
      return (← atomSet? flags first, '-' :: rest)
    else
      let (last, after) ← readClassAtom? flags (skipLayout flags rest)
      return (← rangeSet? flags first last, after)
  | after => return (← atomSet? flags first, after)

/-- The operation of two equal signs in a class. -/
def setOperation? : Char → Option (CharSet → CharSet → CharSet)
  | '&' => some CharSet.both
  | '-' => some CharSet.without
  | '~' => some CharSet.oneOf
  | _ => none

/-- The hyphens at the start of a class and what follows them: they stand for themselves. -/
def skipHyphens (flags : Flags) : Nat → CharSet → List Char → CharSet × List Char
  | 0, s, cs => (s, cs)
  | fuel + 1, s, cs =>
    match skipLayout flags cs with
    | '-' :: rest => skipHyphens flags fuel (CharSet.one '-') rest
    | cs => (s, cs)

/-- What stands at the start of a class: whether it is negated, the hyphens and the bracket that
stand for themselves, and what follows them. -/
def readClassStart (flags : Flags) (cs : List Char) : Bool × CharSet × List Char :=
  let (negated, cs) := match skipLayout flags cs with
    | '^' :: rest => (true, rest)
    | cs => (false, cs)
  match skipHyphens flags cs.length CharSet.empty cs with
  | (s, after) =>
    match skipLayout flags cs, after with
    | ']' :: _, ']' :: rest => (negated, CharSet.one ']', rest)
    | _, after => (negated, s, after)

mutual
/-- Read a class, given by what follows its opening bracket.  `fuel` bounds the count of its
parts. -/
def readClassWith? (flags : Flags) : Nat → List Char → Option (CharSet × List Char)
  | 0, _ => none
  | fuel + 1, cs =>
    let (negated, s, after) := readClassStart flags cs
    readMembersWith? flags negated fuel id s after

/-- Read the members of a class up to its closing bracket.  `s` holds the members since the last
operation, and `before` applies the operations so far to the members that follow them. -/
def readMembersWith? (flags : Flags) (negated : Bool) :
    Nat → (CharSet → CharSet) → CharSet → List Char → Option (CharSet × List Char)
  | 0, _, _, _ => none
  | fuel + 1, before, s, cs =>
    let folded := fun (s : CharSet) =>
      if flags.ignoreCase then s.upToCase flags.unicode else s
    match skipLayout flags cs with
    | [] => none
    | ']' :: rest => (finishedSet? flags negated (before s)).map fun s => (s, rest)
    | '[' :: rest =>
      match readNamedClass? rest with
      | some (t, after) => readMembersWith? flags negated fuel before (s.union t) after
      | none =>
        match readClassWith? flags fuel rest with
        | some (t, after) => readMembersWith? flags negated fuel before (s.union t) after
        | none => none
    | c :: rest =>
      match if rest.head? = some c then setOperation? c else none with
      | some operation =>
        let left := folded (before s)
        readMembersWith? flags negated fuel (fun t => operation left (folded t)) CharSet.empty
          rest.tail
      | none =>
        match readRange? flags (c :: rest) with
        | some (t, after) => readMembersWith? flags negated fuel before (s.union t) after
        | none => none
end

/-- Read a class, given by what follows its opening bracket. -/
def readClass? (flags : Flags) (cs : List Char) : Option (CharSet × List Char) :=
  readClassWith? flags (cs.length + 1) cs

/-! ### Flags and groups -/

/-- Set a flag by its letter. -/
def Flags.set? (flags : Flags) (letter : Char) (value : Bool) : Option Flags :=
  match letter with
  | 'i' => some { flags with ignoreCase := value }
  | 'm' => some { flags with multiLine := value }
  | 's' => some { flags with dotAll := value }
  | 'u' => some { flags with unicode := value }
  | 'R' => some { flags with carriageReturns := value }
  | 'x' => some { flags with verbose := value }
  | 'U' => some flags
  | _ => none

/-- Set the flags of a list of letters, after a hyphen unset them.  No letter and no hyphen may
stand twice, and a hyphen may not end the list. -/
def Flags.setAll? (value : Bool) (seen : List Char) (flags : Flags) : List Char → Option Flags
  | [] => if seen.head? = some '-' then none else some flags
  | c :: rest =>
    if seen.contains c then none
    else if c = '-' then setAll? false (c :: seen) flags rest
    else
      match flags.set? c value with
      | some flags => setAll? value (c :: seen) flags rest
      | none => none

/-- The name of a group has letters, digits and a few signs, and starts with a letter or a low
line. -/
def isGroupName : List Char → Bool
  | [] => false
  | c :: rest =>
    (c == '_' || isAlphabetic c.toNat) && rest.all fun c =>
      c ∈ ['_', '.', '[', ']'] || isAlphabetic c.toNat ||
        (category c.toNat).abbreviation.toList.head? == some 'n'

/-- What starts with an opening parenthesis. -/
inductive Opening where
  | group (flags : Flags) (name : Option (List Char))
  | setFlags (flags : Flags)

/-- Read the name of a group, up to the sign that closes it. -/
def readGroupName? (flags : Flags) (cs : List Char) : Option (Opening × List Char) :=
  match cs.span (· ≠ '>') with
  | (name, _ :: after) =>
    if isGroupName name then some (.group flags (some name), after) else none
  | _ => none

/-- What follows an opening parenthesis. -/
def readOpening? (flags : Flags) (cs : List Char) : Option (Opening × List Char) :=
  match skipLayout flags cs with
  | '?' :: 'P' :: '<' :: rest => readGroupName? flags rest
  | '?' :: '<' :: '=' :: _ => none
  | '?' :: '<' :: '!' :: _ => none
  | '?' :: '<' :: rest => readGroupName? flags rest
  | '?' :: rest =>
    match rest.span fun c => c ≠ ':' && c ≠ ')' with
    | (letters, ')' :: after) =>
      if letters = [] then none
      else (Flags.setAll? true [] flags letters).map fun flags => (.setFlags flags, after)
    | (letters, _ :: after) =>
      (Flags.setAll? true [] flags letters).map fun flags => (.group flags none, after)
    | _ => none
  | cs => some (.group flags none, cs)

/-! ### Repetition -/

/-- The largest number of 32 bits. -/
def maxCount : Nat := 0xFFFFFFFF

/-- A number, between white space, and what follows it. -/
def readCount? (cs : List Char) : Option (Nat × List Char) :=
  let (digits, after) := (cs.dropWhile isBlank).span isDigit
  if digits = [] || maxCount < digitsValue digits then none
  else some (digitsValue digits, after.dropWhile isBlank)

/-- The bounds between braces and what follows them. -/
def readBounds? (flags : Flags) (cs : List Char) : Option ((Nat × Option Nat) × List Char) := do
  let (least, after) ← readCount? cs
  let (most, after) ← match skipLayout flags after with
    | ',' :: rest =>
      match skipLayout flags rest with
      | '\x7d' :: _ => some (none, rest)
      | _ => (readCount? rest).map fun (most, after) => (some most, after)
    | after => some (some least, after)
  match skipLayout flags after with
  | '\x7d' :: rest =>
    if most.any (· < least) then none
    else
      match skipLayout flags rest with
      | '?' :: rest => some ((least, most), rest)
      | _ => some ((least, most), rest)
  | _ => none

/-- What follows a sign of repetition, without the sign that makes it lazy. -/
def withoutLazySign : List Char → List Char
  | '?' :: rest => rest
  | cs => cs

/-! ### Bodies -/

/-- The condition of a line's or the text's start. -/
def startPlace (flags : Flags) (before after : Option Char) : Bool :=
  before.isNone || (flags.multiLine &&
    (before == some '\n' ||
      (flags.carriageReturns && before == some '\r' && after != some '\n')))

/-- The condition of a line's or the text's end. -/
def endPlace (flags : Flags) (before after : Option Char) : Bool :=
  after.isNone || (flags.multiLine &&
    if flags.carriageReturns then
      after == some '\r' || (after == some '\n' && before != some '\r')
    else after == some '\n')

/-- The set of the point: all characters but those that end a line. -/
def pointSet (flags : Flags) : CharSet := fun c =>
  flags.dotAll || (c != '\n' && !(flags.carriageReturns && c == '\r'))

/-- The pattern of an atom. -/
def atomPattern? (flags : Flags) : Atom → Option Pattern
  | .literal c =>
    if !flags.ignoreCase then some (one (CharSet.one c))
    else if flags.unicode || c.toNat < 0x80 then
      some (one ((CharSet.one c).upToCase flags.unicode))
    else none
  | .set s => some (one s)
  | .place holds => some (place holds)

/-- The part of a body that has been read: the alternatives that are complete, and the items of the
one being read, both in reverse order.  A change of flags is an item without a pattern, and cannot
be repeated. -/
structure Progress where
  alternatives : List Pattern := []
  items : List (Option Pattern) := []

namespace Progress

/-- Add an item. -/
def add (p : Progress) (item : Option Pattern) : Progress := { p with items := item :: p.items }

/-- Repeat the last item. -/
def repeatLast? (p : Progress) (least : Nat) (most : Option Nat) : Option Progress :=
  match p.items with
  | some item :: rest => some { p with items := some (repeated item least most) :: rest }
  | _ => none

/-- The alternative being read. -/
def current (p : Progress) : Pattern :=
  match p.items.filterMap id with
  | [] => empty
  | last :: before => before.foldl (fun after item => sequence item after) last

/-- Complete the alternative being read. -/
def close (p : Progress) : Progress := { alternatives := p.current :: p.alternatives }

/-- The pattern of the body. -/
def pattern (p : Progress) : Pattern :=
  p.alternatives.foldl (fun later alternative => either alternative later) p.current

end Progress

/-- Read a body up to a closing parenthesis or the end.  `fuel` bounds the count of its parts, and
`names` holds the names of the groups that have been read. -/
def readBodyWith? :
    Nat → Flags → List (List Char) → Progress → List Char →
      Option (Pattern × List (List Char) × List Char)
  | 0, _, _, _, _ => none
  | fuel + 1, flags, names, done, cs =>
    match skipLayout flags cs with
    | [] => some (done.pattern, names, [])
    | ')' :: rest => some (done.pattern, names, ')' :: rest)
    | '|' :: rest => readBodyWith? fuel flags names done.close rest
    | '(' :: rest => do
      match ← readOpening? flags rest with
      | (.setFlags inner, after) => readBodyWith? fuel inner names (done.add none) after
      | (.group inner name, after) =>
        if name.any names.contains then none
        else
          match ← readBodyWith? fuel inner (name.toList ++ names) {} after with
          | (body, names, ')' :: after) =>
            readBodyWith? fuel flags names (done.add (some body)) after
          | _ => none
    | '[' :: rest => do
      let (set, after) ← readClass? flags rest
      readBodyWith? fuel flags names (done.add (some (one set))) after
    | '*' :: rest => do
      readBodyWith? fuel flags names (← done.repeatLast? 0 none) (withoutLazySign rest)
    | '+' :: rest => do
      readBodyWith? fuel flags names (← done.repeatLast? 1 none) (withoutLazySign rest)
    | '?' :: rest => do
      readBodyWith? fuel flags names (← done.repeatLast? 0 (some 1)) (withoutLazySign rest)
    | '\x7b' :: rest => do
      let ((least, most), after) ← readBounds? flags rest
      readBodyWith? fuel flags names (← done.repeatLast? least most) after
    | '.' :: rest =>
      if !flags.unicode then none
      else readBodyWith? fuel flags names (done.add (some (one (pointSet flags)))) rest
    | '^' :: rest =>
      readBodyWith? fuel flags names (done.add (some (place (startPlace flags)))) rest
    | '$' :: rest =>
      readBodyWith? fuel flags names (done.add (some (place (endPlace flags)))) rest
    | '\\' :: rest => do
      let (atom, after) ← readEscape? flags rest
      readBodyWith? fuel flags names (done.add (← atomPattern? flags atom)) after
    | c :: rest => do
      readBodyWith? fuel flags names (done.add (← atomPattern? flags (.literal c))) rest

/-- The largest size of a pattern. -/
def maxSize : Nat := 0x50000

/-- The pattern a text denotes. -/
def read? (s : String) : Option Pattern :=
  match readBodyWith? (s.length + 1) {} [] {} s.toList with
  | some (pattern, _, []) => if pattern.size ≤ maxSize then some pattern else none
  | _ => none

end EntityService.Pattern
