import EntityService.Config.Declaration
import EntityService.Query.Filter

/-!
# Entities

An entity as the service uses it: all defaults filled in, columns with the types of the database.

## Main definitions

* `Column`, `Relation`, `KeyType` — the parts of an entity
* `Entity` — an entity
* `Entity.column?`, `Entity.relation?` — the parts by name
* `Entity.takesKey` — the keys of data that are written to the entity
-/

namespace EntityService.Model

open EntityService.Json EntityService.Query
open EntityService.Config (Rule RelationKind)

/-- The type of a primary key. -/
inductive KeyType where
  | uuid | bigInt | int | text
  deriving DecidableEq, Repr

/-- A column: whether it may be null, whether it may be left out, its type in the database and the
default to fill in for it. -/
structure Column where
  name : String
  nullable : Bool
  hasDefault : Bool
  pgType : String
  default : Option Value
  deriving Repr

/-- A relation to the entity with the id `target`.  Rows are related when the foreign key of the
target's row equals the local key. -/
structure Relation where
  name : String
  kind : RelationKind
  target : String
  localKey : String
  foreignKey : String
  deriving DecidableEq, Repr

/-- An entity of the service. -/
structure Entity where
  id : String
  schema : String
  table : String
  pathSegment : String
  primaryKey : String
  keyType : KeyType
  createdAt : String
  updatedAt : String
  columns : List Column
  filterable : FieldSet
  activeFlag : Option ActiveFlag
  defaultSort : SortKey
  relations : List Relation
  aggregates : List String
  operations : List String
  sensitive : List String
  validation : List (String × Rule)
  pageSize : Nat
  deriving Repr

namespace Entity

/-- The column with a name. -/
def column? (e : Entity) (name : String) : Option Column := e.columns.find? fun c => c.name == name

/-- The entity declares a column. -/
def declares (e : Entity) (name : String) : Bool := (e.column? name).isSome

/-- The relation with a name. -/
def relation? (e : Entity) (name : String) : Option Relation :=
  e.relations.find? fun r => r.name == name

/-- The entity allows an operation. -/
def allows (e : Entity) (operation : String) : Bool := e.operations.contains operation

/-- A column that is never shown. -/
def hides (e : Entity) (column : String) : Bool := e.sensitive.contains column

/-- A key of data is written: a declared column, or any key when no columns are declared. -/
def takesKey (e : Entity) (key : String) : Bool := e.columns.isEmpty || e.declares key

/-- The members of data that are written. -/
def writable (e : Entity) (data : Record) : Record := Record.keep data e.takesKey

/-- A row without the columns that are never shown. -/
def withoutHidden (e : Entity) (row : Record) : Record := Record.keep row fun key => !e.hides key

/-- A timestamp that is set when the data do not give it: it is a declared column. -/
def stamps (e : Entity) (column : String) (data : Record) : Bool :=
  e.declares column && !Record.has data column

end Entity

end EntityService.Model
