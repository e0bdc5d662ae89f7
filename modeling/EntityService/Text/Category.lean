import EntityService.Text.CategoryRuns

/-!
# General categories

The general category of a character and the character classes that are defined from it.

## Main definitions

* `Category` — the thirty general categories
* `category` — the category of a code point
* `isUppercase`, `isLowercase`, `isCased`, `isCaseIgnorable` — the classes that case conversion asks
* `isAlphabetic`, `isWordCharacter` — the classes that patterns ask

## Design notes

Each class answers for ASCII by its own test, so that statements about ASCII text never unfold the
table.
-/

namespace EntityService.Text

/-- The general categories of the Unicode character database. -/
inductive Category where
  | uppercaseLetter | lowercaseLetter | titlecaseLetter | modifierLetter | otherLetter
  | nonspacingMark | spacingMark | enclosingMark
  | decimalNumber | letterNumber | otherNumber
  | connectorPunctuation | dashPunctuation | openPunctuation | closePunctuation
  | initialPunctuation | finalPunctuation | otherPunctuation
  | mathSymbol | currencySymbol | modifierSymbol | otherSymbol
  | spaceSeparator | lineSeparator | paragraphSeparator
  | control | format | surrogate | privateUse | unassigned
  deriving DecidableEq, Repr, Inhabited

namespace Category

/-- The categories in the order of their letters in `categoryRuns`. -/
def all : List Category :=
  [uppercaseLetter, lowercaseLetter, titlecaseLetter, modifierLetter, otherLetter,
   nonspacingMark, spacingMark, enclosingMark,
   decimalNumber, letterNumber, otherNumber,
   connectorPunctuation, dashPunctuation, openPunctuation, closePunctuation,
   initialPunctuation, finalPunctuation, otherPunctuation,
   mathSymbol, currencySymbol, modifierSymbol, otherSymbol,
   spaceSeparator, lineSeparator, paragraphSeparator,
   control, format, surrogate, privateUse, unassigned]

/-- The two-letter abbreviation of a category. -/
def abbreviation : Category → String
  | uppercaseLetter => "lu"
  | lowercaseLetter => "ll"
  | titlecaseLetter => "lt"
  | modifierLetter => "lm"
  | otherLetter => "lo"
  | nonspacingMark => "mn"
  | spacingMark => "mc"
  | enclosingMark => "me"
  | decimalNumber => "nd"
  | letterNumber => "nl"
  | otherNumber => "no"
  | connectorPunctuation => "pc"
  | dashPunctuation => "pd"
  | openPunctuation => "ps"
  | closePunctuation => "pe"
  | initialPunctuation => "pi"
  | finalPunctuation => "pf"
  | otherPunctuation => "po"
  | mathSymbol => "sm"
  | currencySymbol => "sc"
  | modifierSymbol => "sk"
  | otherSymbol => "so"
  | spaceSeparator => "zs"
  | lineSeparator => "zl"
  | paragraphSeparator => "zp"
  | control => "cc"
  | format => "cf"
  | surrogate => "cs"
  | privateUse => "co"
  | unassigned => "cn"

/-- The long name of a category, without separators. -/
def longName : Category → String
  | uppercaseLetter => "uppercaseletter"
  | lowercaseLetter => "lowercaseletter"
  | titlecaseLetter => "titlecaseletter"
  | modifierLetter => "modifierletter"
  | otherLetter => "otherletter"
  | nonspacingMark => "nonspacingmark"
  | spacingMark => "spacingmark"
  | enclosingMark => "enclosingmark"
  | decimalNumber => "decimalnumber"
  | letterNumber => "letternumber"
  | otherNumber => "othernumber"
  | connectorPunctuation => "connectorpunctuation"
  | dashPunctuation => "dashpunctuation"
  | openPunctuation => "openpunctuation"
  | closePunctuation => "closepunctuation"
  | initialPunctuation => "initialpunctuation"
  | finalPunctuation => "finalpunctuation"
  | otherPunctuation => "otherpunctuation"
  | mathSymbol => "mathsymbol"
  | currencySymbol => "currencysymbol"
  | modifierSymbol => "modifiersymbol"
  | otherSymbol => "othersymbol"
  | spaceSeparator => "spaceseparator"
  | lineSeparator => "lineseparator"
  | paragraphSeparator => "paragraphseparator"
  | control => "control"
  | format => "format"
  | surrogate => "surrogate"
  | privateUse => "privateuse"
  | unassigned => "unassigned"

/-- The categories of letters. -/
def isLetter (c : Category) : Bool :=
  c ∈ [uppercaseLetter, lowercaseLetter, titlecaseLetter, modifierLetter, otherLetter]

/-- The categories of marks. -/
def isMark (c : Category) : Bool :=
  c ∈ [nonspacingMark, spacingMark, enclosingMark]

end Category

/-- A run of `categoryRuns`: where it starts, where the next one starts, and its category; `none`
marks alternating uppercase and lowercase letters. -/
structure CategoryRun where
  first : Nat
  stop : Nat
  category : Option Category
  deriving DecidableEq, Repr

/-- Read the runs of categories from their text.  `first` is the start of the run being read and
`length` its length as far as read, `none` before its first digit. -/
def readCategoryRuns (first : Nat) (length : Option Nat) : List Char → List CategoryRun
  | [] => []
  | c :: rest =>
    let digit := fun (d : Nat) => readCategoryRuns first (some (length.getD 0 * 16 + d)) rest
    if '0' ≤ c && c ≤ '9' then digit (c.toNat - '0'.toNat)
    else if 'a' ≤ c && c ≤ 'f' then digit (c.toNat - 'a'.toNat + 10)
    else
      let stop := first + length.getD 1
      let position := if c ≤ 'Z' then c.toNat - 'A'.toNat else c.toNat - 'u'.toNat + 26
      ⟨first, stop, Category.all[position]?⟩ :: readCategoryRuns stop none rest

/-- The runs of the general categories in ascending order. -/
def categoryTable : List CategoryRun :=
  readCategoryRuns 0 none (categoryRuns.flatMap String.toList)

/-- The general category of a code point. -/
def category (code : Nat) : Category :=
  match categoryTable.find? fun run => code < run.stop with
  | none => .unassigned
  | some run => run.category.getD
      (if (code - run.first) % 2 == 0 then .uppercaseLetter else .lowercaseLetter)

/-- One of the runs holds the code point. -/
def inRuns (runs : List (Nat × Nat)) (code : Nat) : Bool :=
  runs.any fun (first, last) => first ≤ code && code ≤ last

/-- Characters of upper case: uppercase letters and a few numbers and symbols. -/
def isUppercase (c : Char) : Bool :=
  if c.toNat < 128 then 'A' ≤ c && c ≤ 'Z'
  else category c.toNat == .uppercaseLetter || inRuns otherUppercase c.toNat

/-- Characters of lower case: lowercase letters and a few modifiers, numbers and symbols. -/
def isLowercase (c : Char) : Bool :=
  if c.toNat < 128 then 'a' ≤ c && c ≤ 'z'
  else category c.toNat == .lowercaseLetter || inRuns otherLowercase c.toNat

/-- Characters that have a case. -/
def isCased (c : Char) : Bool :=
  isUppercase c || isLowercase c || (128 ≤ c.toNat && category c.toNat == .titlecaseLetter)

/-- Characters that are skipped when the context of a letter is examined: marks, modifiers, formats
and the punctuation that stands inside words. -/
def isCaseIgnorable (c : Char) : Bool :=
  if c.toNat < 128 then c ∈ ['\'', '.', ':', '^', '\x60']
  else
    category c.toNat ∈
      [Category.nonspacingMark, .enclosingMark, .format, .modifierLetter, .modifierSymbol] ||
    c.toNat ∈ [0xB7, 0x387, 0x55F, 0x5F4, 0x2018, 0x2019, 0x2024, 0x2027, 0xFE13, 0xFE52, 0xFE55,
      0xFF07, 0xFF0E, 0xFF1A]

/-- Circled and squared letters, which are symbols but count as alphabetic. -/
def isEnclosedLetter (code : Nat) : Bool :=
  inRuns [(0x24B6, 0x24E9), (0x1F130, 0x1F149), (0x1F150, 0x1F169), (0x1F170, 0x1F189)] code

/-- Alphabetic characters: letters, letter numbers, alphabetic marks and enclosed letters. -/
def isAlphabetic (code : Nat) : Bool :=
  (category code).isLetter || category code == .letterNumber || inRuns alphabeticMarks code ||
    isEnclosedLetter code

/-- Characters of words: alphabetic characters, marks, decimal digits, connectors and joiners. -/
def isWordCharacter (code : Nat) : Bool :=
  (category code).isLetter || (category code).isMark ||
    category code ∈ [Category.letterNumber, .decimalNumber, .connectorPunctuation] ||
    isEnclosedLetter code || code == 0x200C || code == 0x200D

end EntityService.Text
