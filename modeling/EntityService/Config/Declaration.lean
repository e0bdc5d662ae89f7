import EntityService.Query.Pending

/-!
# Declarations

What a configuration declares: entities with their columns and rules, and relations between
entities.

## Main definitions

* `ColumnDeclaration`, `ColumnType` — a column and its type
* `Rule` — the rule for the values of a column
* `EntityDeclaration` — an entity
* `RelationDeclaration`, `RelationKind` — a relation from one entity to another
* `Configuration` — all declarations
-/

namespace EntityService.Config

open EntityService.Json EntityService.Number EntityService.Query

/-- The type of a column: a name, or a name with numbers. -/
inductive ColumnType where
  | simple (name : String)
  | parameterized (name : String) (params : Option (List Nat))
  deriving DecidableEq, Repr

/-- The name of a column type. -/
def ColumnType.name : ColumnType → String
  | simple name => name
  | parameterized name _ => name

/-- A declared column.  A default marks a column that need not be given. -/
structure ColumnDeclaration where
  name : String
  type : ColumnType
  nullable : Bool
  default : Option Value
  deriving Repr

/-- The rule for the values of a column. -/
structure Rule where
  required : Option Bool
  format : Option String
  maxLength : Option Nat
  minLength : Option Nat
  pattern : Option String
  allowed : Option (List Value)
  minimum : Option Double
  maximum : Option Double
  deriving Repr

/-- A declared entity. -/
structure EntityDeclaration where
  id : String
  schema : String
  table : String
  pathSegment : String
  primaryKey : String
  createdAt : String
  updatedAt : String
  columns : List ColumnDeclaration
  filterableFields : List String
  activeFlag : Option ActiveFlag
  defaultSort : Option SortKey
  aggregates : List String
  operations : List String
  sensitiveColumns : List String
  validation : List (String × Rule)
  pageSize : Nat
  deriving Repr

/-- A relation leads to one row or to many rows. -/
inductive RelationKind where
  | toOne | toMany
  deriving DecidableEq, Repr

/-- A declared relation.  Rows are related when the foreign key of the row it leads to equals the
local key of the row it starts from. -/
structure RelationDeclaration where
  id : String
  name : String
  fromEntity : String
  toEntity : String
  kind : RelationKind
  localKey : String
  foreignKey : String
  deriving DecidableEq, Repr

/-- All declarations. -/
structure Configuration where
  entities : List EntityDeclaration
  relations : List RelationDeclaration
  deriving Repr

end EntityService.Config
