import EntityService.Text.Split

/-!
# Media types

The media types of request bodies that hold JSON.

## Main definitions

* `isJsonType` — a media type says that a body holds JSON

## Design notes

Such a type is `application/json` or has the suffix `json`; parameters may follow it.  The case of
letters does not count.
-/

namespace EntityService.Http

open EntityService.Text

/-- The characters of names in media types. -/
def isTokenChar (c : Char) : Bool :=
  c.isAlphanum ||
    c ∈ ['!', '#', '$', '%', '&', '\'', '*', '+', '-', '.', '^', '_', '\x60', '|', '~']

/-- A name in a media type. -/
def isToken (cs : List Char) : Bool := cs ≠ [] && cs.all isTokenChar

/-- What may stand between quotation marks. -/
def isQuotedChar (c : Char) : Bool := 0x1F < c.toNat && c.toNat != 0x7F

/-- The value of a parameter and what follows it: a name, or a text between quotation marks. -/
def afterValue? (cs : List Char) : Option (List Char) :=
  match cs with
  | '"' :: c :: rest =>
    match rest.span (· ≠ '"') with
    | (text, _ :: after) =>
      if (c :: text).all isQuotedChar then some (after.dropWhile (· = ' ')) else none
    | _ => none
  | _ =>
    let (value, after) := cs.span isTokenChar
    if value = [] && after ≠ [] then none else some after

/-- The parameters of a media type are well formed.  `fuel` bounds their count. -/
def areParameters : Nat → List Char → Bool
  | 0, _ => false
  | fuel + 1, cs =>
    match cs.dropWhile (· = ' ') with
    | [] => true
    | cs =>
      match cs.span isTokenChar with
      | (name, '=' :: rest) =>
        name ≠ [] &&
          match afterValue? rest with
          | some [] => true
          | some (';' :: more) => areParameters fuel more
          | _ => false
      | _ => false

/-- The parts of a list before and after the last occurrence of a separator. -/
def cutLast (separator : Char) (cs : List Char) : Option (List Char × List Char) :=
  (cutOnceChars separator cs.reverse).map fun (after, before) => (before.reverse, after.reverse)

/-- A subtype stands for JSON: its name is `json`, or its suffix is. -/
def isJsonSubtype (subtype : List Char) : Bool :=
  let json := "json".toList
  match cutLast '+' subtype with
  | some ([], _) => false
  | some (name, suffix) => name == json || suffix == json
  | none => subtype == json

/-- A media type says that a body holds JSON. -/
def isJsonType (mediaType : String) : Bool :=
  let cs := mediaType.toList
  match cutOnceChars '/' (cs.map Char.toLower) with
  | none => false
  | some (type, rest) =>
    let (subtype, parameters) := (cutOnceChars ';' rest).getD (rest, [])
    type == "application".toList && isToken subtype && isJsonSubtype subtype &&
      areParameters (parameters.length + 1) parameters

end EntityService.Http
