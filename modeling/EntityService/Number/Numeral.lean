import EntityService.Number.Double

/-!
# Reading numbers

Texts as integers and as doubles.

## Main definitions

* `digitsValue` — the value of a list of decimal digits
* `readNatural64?`, `readInteger64?` — texts as integers of 64 bits
* `readDouble?` — texts as doubles: a decimal with an optional exponent, an infinity or a NaN

## Design notes

A decimal is read exactly: its digits and its exponent determine a rational number, which is rounded
once.
-/

namespace EntityService.Number

/-- The ten decimal digits. -/
def isDigit (c : Char) : Bool := '0' ≤ c && c ≤ '9'

/-- The value of a decimal digit. -/
def digitValue (c : Char) : Nat := c.toNat - '0'.toNat

/-- The value of decimal digits that follow digits of the value `start`. -/
def digitsValueFrom (start : Nat) (cs : List Char) : Nat :=
  cs.foldl (fun n c => 10 * n + digitValue c) start

/-- The value of a list of decimal digits. -/
def digitsValue (cs : List Char) : Nat := digitsValueFrom 0 cs

/-- The largest integer of 64 bits without a sign. -/
def maxNatural64 : Nat := 0xFFFFFFFFFFFFFFFF

/-- A nonempty list of digits as a number. -/
def readDigits? (cs : List Char) : Option Nat :=
  if cs ≠ [] ∧ cs.all isDigit then some (digitsValue cs) else none

/-- A sign, if there is one, and what follows it: `true` for a minus. -/
def cutSign : List Char → Bool × List Char
  | '-' :: rest => (true, rest)
  | '+' :: rest => (false, rest)
  | cs => (false, cs)

/-- A text as an integer of 64 bits without a sign; a plus may stand before the digits. -/
def readNatural64? (s : String) : Option Nat :=
  let digits := match s.toList with
    | '+' :: rest => rest
    | cs => cs
  (readDigits? digits).filter (· ≤ maxNatural64)

/-- A text as an integer of 64 bits with a sign. -/
def readInteger64? (s : String) : Option Int :=
  let (negative, digits) := cutSign s.toList
  let value := (readDigits? digits).map fun (n : Nat) => if negative then -(n : Int) else n
  value.filter fun n => Double.minInt64 ≤ n && n ≤ Double.maxInt64

/-- The exponent part of a decimal, if the characters are nothing else: `e`, a sign, digits. -/
def readExponent? : List Char → Option Int
  | [] => some 0
  | c :: rest =>
    if c = 'e' ∨ c = 'E' then
      let (negative, digits) := cutSign rest
      (readDigits? digits).map fun (n : Nat) => if negative then -(n : Int) else n
    else none

/-- The double of an unsigned decimal: digits with a point anywhere among or around them, then an
exponent. -/
def readDecimal? (negative : Bool) (cs : List Char) : Option Double :=
  let (whole, afterWhole) := cs.span isDigit
  let (fraction, afterFraction) := match afterWhole with
    | '.' :: rest => rest.span isDigit
    | rest => ([], rest)
  if whole = [] ∧ fraction = [] then none
  else
    (readExponent? afterFraction).map fun e =>
      Double.ofDecimal negative (digitsValue (whole ++ fraction)) (e - fraction.length)

/-- ASCII letters in lower case, for words that are read in any case. -/
def lowerWord (cs : List Char) : String :=
  String.ofList (cs.map Char.toLower)

/-- A text as a double: a sign, then a decimal or one of the words `inf`, `infinity` and `nan`. -/
def readDouble? (s : String) : Option Double :=
  let (negative, cs) := cutSign s.toList
  let word := lowerWord cs
  if word = "inf" ∨ word = "infinity" then some (Double.infinite negative)
  else if word = "nan" then some Double.nan
  else readDecimal? negative cs

/-! ### Numbers as they are written -/

theorem isDigit_of_mem_toDigits {n : Nat} {c : Char} (h : c ∈ Nat.toDigits 10 n) : isDigit c :=
  Nat.isDigit_of_mem_toDigits (by decide) (by decide) h

/-- The digits of a number are read as that number. -/
theorem readDigits?_toDigits (n : Nat) : readDigits? (Nat.toDigits 10 n) = some n := by
  have hdigits : (Nat.toDigits 10 n).all isDigit :=
    List.all_eq_true.mpr fun _ => isDigit_of_mem_toDigits
  have hvalue : digitsValue (Nat.toDigits 10 n) = n := Nat.ofDigitChars_ten_toDigits
  rw [readDigits?, if_pos ⟨Nat.toDigits_ne_nil, hdigits⟩, hvalue]

theorem toList_toString (n : Nat) : (toString n).toList = Nat.toDigits 10 n := Nat.toList_repr

theorem toList_toString_ofNat (n : Nat) :
    (toString (Int.ofNat n)).toList = Nat.toDigits 10 n := Nat.toList_repr

theorem isDigit_of_mem_toString {n : Nat} {c : Char} (h : c ∈ (toString n).toList) : isDigit c :=
  isDigit_of_mem_toDigits (toList_toString n ▸ h)

/-- Different numbers are written differently. -/
theorem toString_injective : Function.Injective (toString : Nat → String) := by
  intro a b h
  have hread := congrArg (fun s => readDigits? s.toList) h
  simpa only [toList_toString, readDigits?_toDigits, Option.some.injEq] using hread

theorem readNatural64?_toString {n : Nat} (h : n ≤ maxNatural64) :
    readNatural64? (toString n) = some n := by
  -- no digit is a sign that could be cut off
  have hplus : '+' ∉ Nat.toDigits 10 n := fun hmem =>
    absurd (isDigit_of_mem_toDigits hmem) (by decide)
  rw [readNatural64?, toList_toString]
  split
  · next rest heq => exact absurd (heq ▸ List.mem_cons_self) hplus
  · rw [readDigits?_toDigits]
    simp [h]

/-- A digit is no sign. -/
theorem cutSign_of_isDigit {c : Char} (h : isDigit c) (rest : List Char) :
    cutSign (c :: rest) = (false, c :: rest) := by
  unfold cutSign
  split
  · next heq => cases heq; exact absurd h (by decide)
  · next heq => cases heq; exact absurd h (by decide)
  · rfl

theorem cutSign_toDigits (n : Nat) :
    cutSign (Nat.toDigits 10 n) = (false, Nat.toDigits 10 n) := by
  cases hdigits : Nat.toDigits 10 n with
  | nil => rfl
  | cons c rest =>
      have hc : isDigit c := isDigit_of_mem_toDigits (hdigits ▸ List.mem_cons_self)
      exact cutSign_of_isDigit hc rest

theorem mem_of_mem_cutSign {cs : List Char} {c : Char} (h : c ∈ (cutSign cs).2) : c ∈ cs := by
  unfold cutSign at h
  split at h
  · exact List.mem_cons_of_mem _ h
  · exact List.mem_cons_of_mem _ h
  · exact h

theorem toList_toString_negSucc (n : Nat) :
    (toString (Int.negSucc n)).toList = '-' :: Nat.toDigits 10 (n + 1) := by
  change ("-" ++ (n + 1).repr).toList = _
  rw [String.toList_append, Nat.toList_repr]
  rfl

theorem readInteger64?_toString {n : Int} (hmin : Double.minInt64 ≤ n)
    (hmax : n ≤ Double.maxInt64) : readInteger64? (toString n) = some n := by
  cases n with
  | ofNat n =>
      simp only [readInteger64?, toList_toString_ofNat, cutSign_toDigits, readDigits?_toDigits]
      simpa using ⟨hmin, hmax⟩
  | negSucc n =>
      have hvalue : -((n + 1 : Nat) : Int) = Int.negSucc n := rfl
      simp only [readInteger64?, toList_toString_negSucc, cutSign, readDigits?_toDigits,
        Option.map_some, if_true, hvalue]
      simp [hmin, hmax]

/-! ### Words for what is no number -/

theorem isNaN_of_readDecimal? {negative : Bool} {cs : List Char} {x : Double}
    (h : readDecimal? negative cs = some x) : x.isNaN = false := by
  unfold readDecimal? at h
  dsimp only at h
  -- with a point and without one
  split at h
  all_goals
    split at h
    · cases h
    · obtain ⟨e, -, rfl⟩ := Option.map_eq_some_iff.mp h
      exact Double.isNaN_ofDecimal _ _ _

/-- Only the word for it is read as a NaN. -/
theorem lowerWord_of_isNaN {s : String} {x : Double} (h : readDouble? s = some x) (hnan : x.isNaN) :
    lowerWord (cutSign s.toList).2 = "nan" := by
  unfold readDouble? at h
  dsimp only at h
  split at h
  · cases h
    cases hnan
  · split at h
    · assumption
    · rw [isNaN_of_readDecimal? h] at hnan
      cases hnan

end EntityService.Number
