import EntityService.Config.Declaration
import EntityService.Config.Error
import EntityService.Json.Reader

/-!
# Reading declarations

Texts as declarations.

## Main definitions

* `fields?` — the known fields of a structure
* `readEntity?`, `readRelation?` — the declaration of a tree
* `Configuration.read` — the configuration of two texts

## Design notes

A structure is an object or the array of its fields in their order.  Unknown fields of an object are
passed over, whatever they hold; a known field may come once only.  Fields with a default may be
missing, and in an array the last ones may.  A column type with numbers is no structure of this
kind: it is one of two forms that are told apart by what they hold, and only an object has its form.
-/

namespace EntityService.Config

open EntityService.Json EntityService.Number EntityService.Query

/-- A way to read a tree. -/
abbrev Reads (α : Type) := Tree → Option α

/-- The known fields among the members of an object, each of which may come once. -/
def knownFields? (names : List String) :
    List (Option String × Tree) → Option (List (String × Tree))
  | [] => some []
  | (none, _) :: _ => none
  | (some key, t) :: rest => do
    let fields ← knownFields? names rest
    if names.contains key then
      if Record.has fields key then none else return (key, t) :: fields
    else return fields

/-- The known fields of a structure, given as an object or as an array. -/
def fields? (names : List String) : Reads (List (String × Tree))
  | .object members => knownFields? names members
  | .array items => if items.length ≤ names.length then some (names.zip items) else none
  | _ => none

/-- Read a field that has to be there. -/
def required {α : Type} (fields : List (String × Tree)) (name : String) (read : Reads α) :
    Option α :=
  (Record.get? fields name).bind read

/-- Read a field that has a default. -/
def withDefault {α : Type} (fields : List (String × Tree)) (name : String) (default : α)
    (read : Reads α) : Option α :=
  match Record.get? fields name with
  | none => some default
  | some t => read t

/-- Read null as nothing. -/
def nullable {α : Type} (read : Reads α) : Reads (Option α)
  | .null => some none
  | t => (read t).map some

/-- Read a field that may be missing or null. -/
def maybe {α : Type} (fields : List (String × Tree)) (name : String) (read : Reads α) :
    Option (Option α) :=
  withDefault fields name none (nullable read)

/-- Read a text. -/
def readString? : Reads String
  | .string s => s
  | _ => none

/-- Read a boolean. -/
def readBool? : Reads Bool
  | .bool b => some b
  | _ => none

/-- Read a natural number up to a bound. -/
def readNatural? (bound : Nat) : Reads Nat
  | .number n =>
    match n.number? with
    | some (.integer k) => if 0 ≤ k ∧ k ≤ bound then some k.toNat else none
    | _ => none
  | _ => none

/-- The largest natural number of 32 bits. -/
def maxNatural32 : Nat := 0xFFFFFFFF

/-- Read a double. -/
def readDouble? : Reads Double
  | .number n => n.number?.map Number.toDouble
  | _ => none

/-- Read the items of an array. -/
def readItems? {α : Type} (read : Reads α) : List Tree → Option (List α)
  | [] => some []
  | t :: rest => do
    let a ← read t
    let as ← readItems? read rest
    return a :: as

/-- Read an array. -/
def readList? {α : Type} (read : Reads α) : Reads (List α)
  | .array items => readItems? read items
  | _ => none

/-- Read the members of an object. -/
def readEntries? {α : Type} (read : Reads α) :
    List (Option String × Tree) → Option (List (String × α))
  | [] => some []
  | (key?, t) :: rest => do
    let key ← key?
    let a ← read t
    let as ← readEntries? read rest
    return (key, a) :: as

/-- Read an object with any keys; of members with the same key the last one counts. -/
def readMap? {α : Type} (read : Reads α) : Reads (List (String × α))
  | .object members => (readEntries? read members).map Record.ofList
  | _ => none

/-- Read a value that stands `depth` levels deep. -/
def readValueAt? (depth : Nat) : Reads Value := Tree.valueWithin? (Tree.maxDepth - depth)

/-- The fields of a column type with numbers. -/
def columnTypeFields : List String := ["name", "params"]

/-- Read a column type: a name, or an object with a name and, unless it lacks them, numbers.
Everything in the object has to be a value. -/
def readColumnType? : Reads ColumnType
  | .string s => s.map .simple
  | .object members => do
    let _ ← readValueAt? 4 (.object members)
    let fields ← knownFields? columnTypeFields members
    let name ← required fields "name" readString?
    let params ← withDefault fields "params" none
      (nullable (readList? (readNatural? maxNatural32)))
    return .parameterized name params
  | _ => none

/-- The fields of a column. -/
def columnFields : List String := ["name", "type", "nullable", "default"]

/-- Read a column. -/
def readColumn? : Reads ColumnDeclaration := fun t => do
  let fields ← fields? columnFields t
  return {
    name := ← required fields "name" readString?
    type := ← required fields "type" readColumnType?
    nullable := ← withDefault fields "nullable" true readBool?
    default := ← maybe fields "default" (readValueAt? 4) }

/-- The fields of an active flag. -/
def activeFlagFields : List String := ["column", "value"]

/-- Read an active flag. -/
def readActiveFlag? : Reads ActiveFlag := fun t => do
  let fields ← fields? activeFlagFields t
  return {
    column := ← withDefault fields "column" "is_active" readString?
    value := ← withDefault fields "value" (Value.ofNat 1) (readValueAt? 3) }

/-- The fields of a default sort. -/
def sortFields : List String := ["column", "direction"]

/-- Read a default sort. -/
def readSort? : Reads SortKey := fun t => do
  let fields ← fields? sortFields t
  return {
    column := ← required fields "column" readString?
    direction := ← withDefault fields "direction" "desc" readString? }

/-- The fields of a rule. -/
def ruleFields : List String :=
  ["required", "format", "max_length", "min_length", "pattern", "allowed", "minimum", "maximum"]

/-- Read a rule. -/
def readRule? : Reads Rule := fun t => do
  let fields ← fields? ruleFields t
  return {
    required := ← maybe fields "required" readBool?
    format := ← maybe fields "format" readString?
    maxLength := ← maybe fields "max_length" (readNatural? maxNatural32)
    minLength := ← maybe fields "min_length" (readNatural? maxNatural32)
    pattern := ← maybe fields "pattern" readString?
    allowed := ← maybe fields "allowed" (readList? (readValueAt? 5))
    minimum := ← maybe fields "minimum" readDouble?
    maximum := ← maybe fields "maximum" readDouble? }

/-- The operations of an entity that declares none. -/
def defaultOperations : List String := ["create", "read", "update", "delete", "bulk_create"]

/-- The fields of an entity. -/
def entityFields : List String :=
  ["id", "schema", "table", "path_segment", "primary_key", "created_at", "updated_at", "columns",
   "filterable_fields", "active_flag", "default_sort", "aggregates", "operations",
   "sensitive_columns", "validation", "page_size"]

/-- Read an entity. -/
def readEntity? : Reads EntityDeclaration := fun t => do
  let fields ← fields? entityFields t
  return {
    id := ← required fields "id" readString?
    schema := ← withDefault fields "schema" "public" readString?
    table := ← required fields "table" readString?
    pathSegment := ← required fields "path_segment" readString?
    primaryKey := ← withDefault fields "primary_key" "id" readString?
    createdAt := ← withDefault fields "created_at" "created_at" readString?
    updatedAt := ← withDefault fields "updated_at" "updated_at" readString?
    columns := ← withDefault fields "columns" [] (readList? readColumn?)
    filterableFields := ← withDefault fields "filterable_fields" [] (readList? readString?)
    activeFlag := ← maybe fields "active_flag" readActiveFlag?
    defaultSort := ← maybe fields "default_sort" readSort?
    aggregates := ← withDefault fields "aggregates" [] (readList? readString?)
    operations := ← withDefault fields "operations" defaultOperations (readList? readString?)
    sensitiveColumns := ← withDefault fields "sensitive_columns" [] (readList? readString?)
    validation := ← withDefault fields "validation" [] (readMap? readRule?)
    pageSize := ← withDefault fields "page_size" 25 (readNatural? maxNatural64) }

/-- The kind of a relation by its name. -/
def RelationKind.ofName? : String → Option RelationKind
  | "to_one" => some .toOne
  | "to_many" => some .toMany
  | _ => none

/-- Read the kind of a relation: its name, or an object with null under its name. -/
def readRelationKind? : Reads RelationKind
  | .string (some s) => RelationKind.ofName? s
  | .object [(some s, .null)] => RelationKind.ofName? s
  | _ => none

/-- The fields of a relation. -/
def relationFields : List String :=
  ["id", "name", "from_entity_id", "to_entity_id", "kind", "local_key", "foreign_key"]

/-- Read a relation. -/
def readRelation? : Reads RelationDeclaration := fun t => do
  let fields ← fields? relationFields t
  return {
    id := ← required fields "id" readString?
    name := ← required fields "name" readString?
    fromEntity := ← required fields "from_entity_id" readString?
    toEntity := ← required fields "to_entity_id" readString?
    kind := ← required fields "kind" readRelationKind?
    localKey := ← required fields "local_key" readString?
    foreignKey := ← required fields "foreign_key" readString? }

/-- Read a part of a configuration: a list of declarations in a text. -/
def readPart {α : Type} (part : String) (read : Reads α) (s : String) :
    Except ConfigError (List α) :=
  match (readTree? s).bind (readList? read) with
  | some declarations => .ok declarations
  | none => .error (.malformed part)

namespace Configuration

/-- The configuration of a text with entities and a text with relations. -/
def read (entities relations : String) : Except ConfigError Configuration := do
  let entities ← readPart "entities" readEntity? entities
  let relations ← readPart "relations" readRelation? relations
  return { entities, relations }

/-- The configuration of a file with entities and a file with relations, of which the latter may be
missing. -/
def readFiles (entities relations : Option String) : Except ConfigError Configuration :=
  match entities with
  | none => .error (.unreadable "entities.json")
  | some entities => read entities (relations.getD "[]")

end Configuration

end EntityService.Config
