import EntityService.Json.Reader
import EntityService.Text.Split
import EntityService.Text.Utf8

/-!
# Targets of requests

Path and query of a request target, and the texts that are encoded in them.

## Main definitions

* `Target` — the segments of a path, and a query
* `Target.read` — the target a text denotes
* `segmentText?` — the text of a segment
* `queryPairs` — the keys and values of a query
* `encodedText` — a text as a segment
-/

namespace EntityService.Http

open EntityService.Text

/-- The target of a request: the segments of its path as they are encoded, and its query. -/
structure Target where
  segments : List String
  query : String
  deriving DecidableEq, Repr

/-- The target a text denotes: a path, then a query after a question mark.  What follows a number
sign does not count. -/
def Target.read (s : String) : Target :=
  let (whole, _) := (cutOnce '#' s).getD (s, "")
  let (path, query) := (cutOnce '?' whole).getD (whole, "")
  ⟨pieces '/' path, query⟩

/-- The octets of an encoded text: a percent sign and two hexadecimal digits stand for one octet. -/
def percentOctets : List Char → List UInt8
  | [] => []
  | '%' :: a :: b :: rest =>
    match Json.hexDigit? a, Json.hexDigit? b with
    | some high, some low => UInt8.ofNat (16 * high + low) :: percentOctets rest
    | _, _ => String.utf8EncodeChar '%' ++ percentOctets (a :: b :: rest)
  | c :: rest => String.utf8EncodeChar c ++ percentOctets rest

/-- The text of a segment, if its octets are one. -/
def segmentText? (segment : String) : Option String := readUtf8? (percentOctets segment.toList)

/-- The text of a key or value of a query, in which a plus stands for a space. -/
def queryText (s : String) : String :=
  readUtf8Lossy (percentOctets (s.toList.map fun c => if c = '+' then ' ' else c))

/-- The keys and values of a query.  A pair without a sign of equality has an empty value. -/
def queryPairs (query : String) : List (String × String) :=
  ((pieces '&' query).filter (· ≠ "")).map fun pair =>
    let (key, value) := (cutOnce '=' pair).getD (pair, "")
    (queryText key, queryText value)

/-! ### Plain texts -/

/-- A text of ASCII letters and digits, which a query spells as it is. -/
def IsPlain (s : String) : Prop := s.toList.all Char.isAlphanum = true

instance (s : String) : Decidable (IsPlain s) := inferInstanceAs (Decidable (_ = true))

theorem IsPlain.not_mem {s : String} (h : IsPlain s) {c : Char} (hc : c.isAlphanum = false) :
    c ∉ s.toList := by
  intro hmem
  rw [List.all_eq_true.mp h c hmem] at hc
  cases hc

theorem percentOctets_cons {c : Char} (h : c ≠ '%') (rest : List Char) :
    percentOctets (c :: rest) = String.utf8EncodeChar c ++ percentOctets rest := by
  rw [percentOctets]
  intro a b rest hc
  exact absurd hc h

/-- Without a percent sign each character stands for its own octets. -/
theorem percentOctets_of_not_mem {cs : List Char} (h : '%' ∉ cs) :
    percentOctets cs = cs.flatMap String.utf8EncodeChar := by
  induction cs with
  | nil => rfl
  | cons c cs ih =>
      rw [List.mem_cons, not_or] at h
      rw [percentOctets_cons (Ne.symm h.1), ih h.2, List.flatMap_cons]

theorem IsPlain.queryText {s : String} (h : IsPlain s) : queryText s = s := by
  have hplus : s.toList.map (fun c => if c = '+' then ' ' else c) = s.toList := by
    refine (List.map_congr_left fun c hc => if_neg ?_).trans (List.map_id _)
    rintro rfl
    exact h.not_mem (by decide) hc
  rw [Http.queryText, hplus, percentOctets_of_not_mem (h.not_mem (by decide)),
    readUtf8Lossy_flatMap, String.ofList_toList]

/-- A pair of plain texts at the end of a query is its last pair. -/
theorem queryPairs_append {key value : String} (hkey : IsPlain key) (hvalue : IsPlain value)
    (query : String) :
    queryPairs (query ++ "&" ++ (key ++ "=" ++ value)) = queryPairs query ++ [(key, value)] := by
  have hand : '&' ∉ (key ++ "=" ++ value).toList := by
    simp only [String.toList_append, List.mem_append, not_or]
    exact ⟨⟨hkey.not_mem (by decide), by decide⟩, hvalue.not_mem (by decide)⟩
  -- the pair is not empty, since it has a sign of equality
  have hfilter : [key ++ "=" ++ value].filter (· ≠ "") = [key ++ "=" ++ value] :=
    List.filter_cons_of_pos (by simp)
  have hpieces : pieces '&' (query ++ "&" ++ (key ++ "=" ++ value)) =
      pieces '&' query ++ [key ++ "=" ++ value] := by
    rw [← pieces_of_not_mem hand]
    exact pieces_append '&' query _
  have hcut : cutOnce '=' (key ++ "=" ++ value) = some (key, value) :=
    cutOnce_append (hkey.not_mem (by decide)) value
  rw [queryPairs, queryPairs, hpieces, List.filter_append, List.map_append, hfilter,
    List.map_singleton, hcut, Option.getD_some]
  simp only [hkey.queryText, hvalue.queryText]

/-! ### Texts that are encoded -/

/-- An octet as it is encoded. -/
def encodedOctet (b : UInt8) : List Char :=
  ['%', Nat.digitChar (b.toNat / 16), Nat.digitChar (b.toNat % 16)]

/-- A text with each of its octets encoded, whether it has to be or not. -/
def encodedText (s : String) : String :=
  String.ofList ((s.toList.flatMap String.utf8EncodeChar).flatMap encodedOctet)

theorem hexDigit?_digitChar : ∀ n < 16, Json.hexDigit? (Nat.digitChar n) = some n := by
  decide

theorem percentOctets_encodedOctet (b : UInt8) (rest : List Char) :
    percentOctets (encodedOctet b ++ rest) = b :: percentOctets rest := by
  have hhigh := hexDigit?_digitChar (b.toNat / 16) (Nat.div_lt_of_lt_mul b.toNat_lt)
  have hlow := hexDigit?_digitChar (b.toNat % 16) (Nat.mod_lt _ (by decide))
  change percentOctets ('%' :: _ :: _ :: rest) = _
  simp only [percentOctets, hhigh, hlow, Nat.div_add_mod, UInt8.ofNat_toNat]

theorem percentOctets_flatMap (octets : List UInt8) :
    percentOctets (octets.flatMap encodedOctet) = octets := by
  induction octets with
  | nil => rfl
  | cons b octets ih => rw [List.flatMap_cons, percentOctets_encodedOctet, ih]

/-- Every text is the text of a segment. -/
theorem segmentText?_encodedText (s : String) : segmentText? (encodedText s) = some s := by
  rw [segmentText?, encodedText, String.toList_ofList, percentOctets_flatMap, readUtf8?_flatMap,
    String.ofList_toList]

end EntityService.Http
