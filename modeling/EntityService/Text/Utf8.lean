/-!
# UTF-8

Octets as characters.

## Main definitions

* `decodeUtf8` — the characters of octets, `none` for each part that is no character
* `readUtf8?` — octets as a text, if they are one
* `readUtf8Lossy` — octets as a text, with a replacement for each part that is no character

## Design notes

A part that is no character is as long as the longest beginning of a character that it has.
-/

namespace EntityService.Text

/-- The beginning of a character: the bits read so far, the count of octets to come, and the bounds
of the next one. -/
structure PartialChar where
  bits : Nat
  toCome : Nat
  least : Nat
  most : Nat
  deriving DecidableEq, Repr

/-- What the first octet of a character says: a character, the beginning of one, or neither. -/
def leadOctet (b : Nat) : List (Option Char) × Option PartialChar :=
  if b < 0x80 then ([some (Char.ofNat b)], none)
  else if 0xC2 ≤ b && b ≤ 0xDF then ([], some ⟨b % 0x20, 1, 0x80, 0xBF⟩)
  else if b == 0xE0 then ([], some ⟨0, 2, 0xA0, 0xBF⟩)
  else if b == 0xED then ([], some ⟨0xD, 2, 0x80, 0x9F⟩)
  else if 0xE1 ≤ b && b ≤ 0xEF then ([], some ⟨b % 0x10, 2, 0x80, 0xBF⟩)
  else if b == 0xF0 then ([], some ⟨0, 3, 0x90, 0xBF⟩)
  else if 0xF1 ≤ b && b ≤ 0xF3 then ([], some ⟨b % 8, 3, 0x80, 0xBF⟩)
  else if b == 0xF4 then ([], some ⟨4, 3, 0x80, 0x8F⟩)
  else ([none], none)

/-- What the next octet says after the beginning of a character. -/
def nextOctet (p : PartialChar) (b : Nat) : List (Option Char) × Option PartialChar :=
  if p.least ≤ b && b ≤ p.most then
    let bits := p.bits * 0x40 + b % 0x40
    if p.toCome = 1 then ([some (Char.ofNat bits)], none)
    else ([], some ⟨bits, p.toCome - 1, 0x80, 0xBF⟩)
  else
    let (chars, state) := leadOctet b
    (none :: chars, state)

/-- The characters of octets that follow the beginning of a character. -/
def decodeUtf8After : Option PartialChar → List UInt8 → List (Option Char)
  | none, [] => []
  | some _, [] => [none]
  | state, b :: rest =>
    let (chars, state) := match state with
      | none => leadOctet b.toNat
      | some p => nextOctet p b.toNat
    chars ++ decodeUtf8After state rest

/-- The characters of octets, `none` for each part that is no character. -/
def decodeUtf8 (octets : List UInt8) : List (Option Char) := decodeUtf8After none octets

/-- Octets as a text, if they are one. -/
def readUtf8? (octets : List UInt8) : Option String :=
  ((decodeUtf8 octets).mapM id).map String.ofList

/-- Octets as a text, with the replacement character for each part that is no character. -/
def readUtf8Lossy (octets : List UInt8) : String :=
  String.ofList ((decodeUtf8 octets).map fun c => c.getD '\uFFFD')

/-! ### Characters as octets -/

/-- The last octets of the character with a number: six bits each. -/
def tailOctets (n : Nat) : Nat → List UInt8
  | 0 => []
  | k + 1 => UInt8.ofNat (n / Nat.pow 64 k % 0x40 + 0x80) :: tailOctets n k

/-- The next octet of a character adds its bits. -/
theorem decodeUtf8After_next {p : PartialChar} {n : Nat} (hleast : p.least ≤ n % 0x40 + 0x80)
    (hmost : n % 0x40 + 0x80 ≤ p.most) (rest : List UInt8) :
    decodeUtf8After (some p) (UInt8.ofNat (n % 0x40 + 0x80) :: rest) =
      if p.toCome = 1 then
        some (Char.ofNat (p.bits * 0x40 + n % 0x40)) :: decodeUtf8After none rest
      else decodeUtf8After (some ⟨p.bits * 0x40 + n % 0x40, p.toCome - 1, 0x80, 0xBF⟩) rest := by
  have hoctet : (UInt8.ofNat (n % 0x40 + 0x80)).toNat = n % 0x40 + 0x80 :=
    UInt8.toNat_ofNat_of_lt (Nat.lt_of_le_of_lt (m := 0xBF) (by omega) (by decide))
  have hbits : (n % 0x40 + 0x80) % 0x40 = n % 0x40 := by omega
  have hbounds : (p.least ≤ n % 0x40 + 0x80 && n % 0x40 + 0x80 ≤ p.most) = true := by
    simp only [Bool.and_eq_true, decide_eq_true_eq]
    exact ⟨hleast, hmost⟩
  simp only [decodeUtf8After, hoctet, nextOctet, hbounds, if_true, hbits]
  split <;> rfl

/-- The last octets of a character complete its beginning.  Only its second octet has bounds of its
own. -/
theorem decodeUtf8After_tailOctets (n k : Nat) (rest : List UInt8) {least most : Nat}
    (hleast : least ≤ n / Nat.pow 64 k % 0x40 + 0x80)
    (hmost : n / Nat.pow 64 k % 0x40 + 0x80 ≤ most) :
    decodeUtf8After (some ⟨n / Nat.pow 64 (k + 1), k + 1, least, most⟩)
        (tailOctets n (k + 1) ++ rest) =
      some (Char.ofNat n) :: decodeUtf8After none rest := by
  have hbits : ∀ k, n / Nat.pow 64 (k + 1) * 0x40 + n / Nat.pow 64 k % 0x40 = n / Nat.pow 64 k := by
    intro k
    have hpow : Nat.pow 64 (k + 1) = Nat.pow 64 k * 64 := rfl
    rw [hpow, ← Nat.div_div_eq_div_mul]
    exact Nat.div_add_mod' _ _
  induction k generalizing least most with
  | zero =>
      have hone : Nat.pow 64 0 = 1 := rfl
      rw [tailOctets, List.cons_append, decodeUtf8After_next hleast hmost, if_pos rfl, hbits, hone,
        Nat.div_one, tailOctets, List.nil_append]
  | succ k ih =>
      have hmore : k + 1 + 1 ≠ 1 := by omega
      rw [tailOctets, List.cons_append, decodeUtf8After_next hleast hmost, if_neg hmore, hbits]
      exact ih (by omega) (by omega)

/-- The octets of a character: its first octet with the bits that it has, then the last octets. -/
theorem decodeUtf8_lead {b n k : Nat} {least most : Nat} (hb : b < 0x100)
    (hlead : leadOctet b = ([], some ⟨n / Nat.pow 64 (k + 1), k + 1, least, most⟩))
    (hleast : least ≤ n / Nat.pow 64 k % 0x40 + 0x80)
    (hmost : n / Nat.pow 64 k % 0x40 + 0x80 ≤ most)
    (rest : List UInt8) :
    decodeUtf8 (UInt8.ofNat b :: tailOctets n (k + 1) ++ rest) =
      some (Char.ofNat n) :: decodeUtf8 rest := by
  have hoctet : (UInt8.ofNat b).toNat = b := UInt8.toNat_ofNat_of_lt hb
  rw [decodeUtf8, List.cons_append, decodeUtf8After]
  simp only [hoctet, hlead]
  exact decodeUtf8After_tailOctets n k rest hleast hmost

/-- The first octet of a character that has two. -/
theorem leadOctet_two {n : Nat} (hlow : 0x7F < n) (hhigh : n ≤ 0x7FF) :
    leadOctet (n / 64 % 0x20 + 0xC0) = ([], some ⟨n / 64, 1, 0x80, 0xBF⟩) := by
  have hbits : (n / 64 % 0x20 + 0xC0) % 0x20 = n / 64 := by omega
  have hrange : (0xC2 ≤ n / 64 % 0x20 + 0xC0 && n / 64 % 0x20 + 0xC0 ≤ 0xDF) = true := by
    simp only [Bool.and_eq_true, decide_eq_true_eq]
    omega
  rw [leadOctet, if_neg (by omega), if_pos hrange, hbits]

/-- The first octet of a character that has three, and the bounds of the second one.  No character
is a surrogate. -/
theorem leadOctet_three {n : Nat} (hlow : 0x7FF < n) (hhigh : n ≤ 0xFFFF)
    (hscalar : n < 0xD800 ∨ 0xDFFF < n) :
    ∃ least most, leadOctet (n / 4096 % 0x10 + 0xE0) = ([], some ⟨n / 4096, 2, least, most⟩) ∧
      least ≤ n / 64 % 0x40 + 0x80 ∧ n / 64 % 0x40 + 0x80 ≤ most := by
  by_cases hfirst : n / 4096 = 0
  · exact ⟨0xA0, 0xBF, by rw [hfirst]; rfl, by omega, by omega⟩
  by_cases hsurrogates : n / 4096 = 0xD
  · exact ⟨0x80, 0x9F, by rw [hsurrogates]; rfl, by omega, by omega⟩
  refine ⟨0x80, 0xBF, ?_, by omega, by omega⟩
  have hbits : (n / 4096 % 0x10 + 0xE0) % 0x10 = n / 4096 := by omega
  have hrange : (0xE1 ≤ n / 4096 % 0x10 + 0xE0 && n / 4096 % 0x10 + 0xE0 ≤ 0xEF) = true := by
    simp only [Bool.and_eq_true, decide_eq_true_eq]
    omega
  rw [leadOctet, if_neg (by omega), if_neg (by simp), if_neg (by simp; omega),
    if_neg (by simp; omega), if_pos hrange, hbits]

/-- The first octet of a character that has four, and the bounds of the second one. -/
theorem leadOctet_four {n : Nat} (hlow : 0xFFFF < n) (hhigh : n ≤ 0x10FFFF) :
    ∃ least most, leadOctet (n / 262144 % 0x08 + 0xF0) =
        ([], some ⟨n / 262144, 3, least, most⟩) ∧
      least ≤ n / 4096 % 0x40 + 0x80 ∧ n / 4096 % 0x40 + 0x80 ≤ most := by
  by_cases hfirst : n / 262144 = 0
  · exact ⟨0x90, 0xBF, by rw [hfirst]; rfl, by omega, by omega⟩
  by_cases hlast : n / 262144 = 4
  · exact ⟨0x80, 0x8F, by rw [hlast]; rfl, by omega, by omega⟩
  obtain h | h | h : n / 262144 = 1 ∨ n / 262144 = 2 ∨ n / 262144 = 3 := by omega
  all_goals exact ⟨0x80, 0xBF, by rw [h]; rfl, by omega, by omega⟩

/-- The octets of a character are read as this character. -/
theorem decodeUtf8_utf8EncodeChar (c : Char) (rest : List UInt8) :
    decodeUtf8 (String.utf8EncodeChar c ++ rest) = some c :: decodeUtf8 rest := by
  have hvalue : c.val.toNat = c.toNat := rfl
  have hmax : c.toNat ≤ 0x10FFFF := by
    rcases c.valid with h | h
    · exact Nat.le_of_lt (Nat.lt_trans h (by decide))
    · exact Nat.le_of_lt_succ h.2
  have hscalar : c.toNat < 0xD800 ∨ 0xDFFF < c.toNat := c.valid.imp id And.left
  have hoctets : decodeUtf8 (String.utf8EncodeChar c ++ rest) =
      some (Char.ofNat c.toNat) :: decodeUtf8 rest := by
    simp only [String.utf8EncodeChar, hvalue]
    by_cases hone : c.toNat ≤ 0x7F
    · have hoctet : (UInt8.ofNat c.toNat).toNat = c.toNat :=
        UInt8.toNat_ofNat_of_lt (Nat.lt_of_le_of_lt hone (by decide))
      rw [if_pos hone, decodeUtf8, List.singleton_append, decodeUtf8After]
      simp only [hoctet, leadOctet, if_pos (Nat.lt_succ_of_le hone)]
      rfl
    rw [if_neg hone]
    by_cases htwo : c.toNat ≤ 0x7FF
    · have hlead := leadOctet_two (Nat.lt_of_not_le hone) htwo
      have hread := decodeUtf8_lead (k := 0) (by omega) hlead (by omega) (by omega) rest
      simpa [htwo, tailOctets] using hread
    rw [if_neg htwo]
    by_cases hthree : c.toNat ≤ 0xFFFF
    · obtain ⟨least, most, hlead, hleast, hmost⟩ :=
        leadOctet_three (Nat.lt_of_not_le htwo) hthree hscalar
      have hread := decodeUtf8_lead (k := 1) (by omega) hlead hleast hmost rest
      simpa [hthree, tailOctets] using hread
    · obtain ⟨least, most, hlead, hleast, hmost⟩ :=
        leadOctet_four (Nat.lt_of_not_le hthree) hmax
      have hread := decodeUtf8_lead (k := 2) (by omega) hlead hleast hmost rest
      simpa [hthree, tailOctets] using hread
  rwa [Char.ofNat_toNat] at hoctets

/-- The octets of a text are read as this text. -/
theorem decodeUtf8_flatMap (cs : List Char) :
    decodeUtf8 (cs.flatMap String.utf8EncodeChar) = cs.map some := by
  induction cs with
  | nil => rfl
  | cons c cs ih => rw [List.flatMap_cons, decodeUtf8_utf8EncodeChar, ih, List.map_cons]

theorem readUtf8?_flatMap (cs : List Char) :
    readUtf8? (cs.flatMap String.utf8EncodeChar) = some (String.ofList cs) := by
  have hmapM : (cs.map some).mapM id = some cs := by
    induction cs with
    | nil => rfl
    | cons c cs ih => rw [List.map_cons, List.mapM_cons, ih]; rfl
  rw [readUtf8?, decodeUtf8_flatMap, hmapM, Option.map_some]

theorem readUtf8Lossy_flatMap (cs : List Char) :
    readUtf8Lossy (cs.flatMap String.utf8EncodeChar) = String.ofList cs := by
  rw [readUtf8Lossy, decodeUtf8_flatMap, List.map_map]
  exact congrArg String.ofList (List.map_id cs)

end EntityService.Text
