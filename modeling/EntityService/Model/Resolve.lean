import EntityService.Config.Check
import EntityService.Model.Entity
import EntityService.Query.Inclusion

/-!
# The model

The entities of a checked configuration.

## Main definitions

* `Model` — the entities
* `Model.entity?`, `Model.entityAt?` — an entity by its id and by its path segment
* `Hop`, `Model.chain?` — the steps of a dotted relation path
* `Model.resolve` — the model of a configuration
-/

namespace EntityService

open EntityService.Config EntityService.Model EntityService.Query EntityService.Text

namespace Model

/-- The name of a column type in the database.  Names with a point are types of the user and keep
their case. -/
def pgTypeName (type : ColumnType) : String :=
  let lower := lowercase type.name
  if lower = "timestamp with time zone" then "timestamptz"
  else if lower = "serial" then "integer"
  else if lower = "bigserial" then "bigint"
  else if lower = "smallserial" then "smallint"
  else if holds type.name "." then type.name
  else lower

/-- The type of the keys of a primary key column. -/
def keyTypeOf (type : ColumnType) : KeyType :=
  let lower := lowercase type.name
  if holds lower "uuid" then .uuid
  else if holds lower "bigserial" || holds lower "bigint" then .bigInt
  else if holds lower "serial" || holds lower "int" then .int
  else .text

/-- A declared column.  A default of null is none. -/
def columnOf (c : ColumnDeclaration) : Column :=
  let default := c.default.filter fun v => !v.isNull
  { name := c.name, nullable := c.nullable, hasDefault := default.isSome
    pgType := pgTypeName c.type, default }

/-- A timestamp that is not declared. -/
def impliedTimestamp (name : String) : Column :=
  { name, nullable := false, hasDefault := true, pgType := "timestamptz", default := none }

/-- The columns of an entity.  One that declares columns also has its timestamps. -/
def columnsOf (e : EntityDeclaration) : List Column :=
  let declared := e.columns.map columnOf
  if declared.isEmpty then []
  else
    declared ++ ([e.createdAt, e.updatedAt].filter fun name =>
      !declared.any fun c => c.name == name).map impliedTimestamp

/-- A declared relation. -/
def relationOf (r : RelationDeclaration) : Relation :=
  { name := r.name, kind := r.kind, target := r.toEntity, localKey := r.localKey
    foreignKey := r.foreignKey }

/-- The entity of a declaration with the relations that start from it. -/
def entityOf (relations : List RelationDeclaration) (e : EntityDeclaration) : Entity :=
  { id := e.id, schema := e.schema, table := e.table, pathSegment := e.pathSegment
    primaryKey := e.primaryKey
    keyType := match e.columns.find? fun c => c.name == e.primaryKey with
      | some c => keyTypeOf c.type
      | none => .bigInt
    createdAt := e.createdAt, updatedAt := e.updatedAt
    columns := columnsOf e
    filterable := FieldSet.of e.filterableFields e.primaryKey e.createdAt e.updatedAt
    activeFlag := e.activeFlag
    defaultSort := e.defaultSort.getD ⟨e.primaryKey, "desc"⟩
    relations := (relations.filter fun r => r.fromEntity == e.id).map relationOf
    aggregates := e.aggregates, operations := e.operations, sensitive := e.sensitiveColumns
    validation := e.validation
    pageSize := max e.pageSize 1 }

end Model

/-- The entities of a service. -/
structure Model where
  entities : List Entity
  deriving Repr

namespace Model

/-- The entity with an id. -/
def entity? (m : Model) (id : String) : Option Entity := m.entities.find? fun e => e.id == id

/-- The entity with a path segment. -/
def entityAt? (m : Model) (segment : String) : Option Entity :=
  m.entities.find? fun e => e.pathSegment == segment

/-- A step of a relation path: a relation and the entity it leads to. -/
structure Hop where
  relation : Relation
  target : Entity
  deriving Repr

/-- The step of a relation with a name. -/
def hop? (m : Model) (e : Entity) (name : String) : Option Hop := do
  let relation ← e.relation? name
  let target ← m.entity? relation.target
  return ⟨relation, target⟩

/-- The steps of a path from an entity, given by its segments. -/
def chain? (m : Model) (e : Entity) : List String → Option (List Hop)
  | [] => some []
  | name :: rest => do
    let relation ← e.relation? name
    let target ← m.entity? relation.target
    let hops ← m.chain? target rest
    return ⟨relation, target⟩ :: hops

/-- A path begins with the step of its first segment. -/
theorem chain?_cons (m : Model) (e : Entity) (name : String) (rest : List String) :
    m.chain? e (name :: rest) =
      (m.hop? e name).bind fun hop => (m.chain? hop.target rest).map (hop :: ·) := by
  rw [chain?, hop?]
  simp only [Option.bind_eq_bind, Option.pure_def, Option.bind_assoc, Option.bind_some,
    Option.map_eq_bind, Function.comp_def]

/-- A step is along a relation of the entity with the name, to an entity of the model. -/
theorem of_hop? {m : Model} {e : Entity} {name : String} {hop : Hop}
    (h : m.hop? e name = some hop) :
    hop.relation.name = name ∧ hop.relation ∈ e.relations ∧ hop.target ∈ m.entities := by
  unfold hop? at h
  simp only [Option.bind_eq_bind, Option.bind_eq_some_iff, Option.pure_def, Option.some.injEq] at h
  obtain ⟨r, hr, target, htarget, rfl⟩ := h
  rw [Entity.relation?] at hr
  have hname := List.find?_some hr
  exact ⟨beq_iff_eq.mp hname, List.mem_of_find?_eq_some hr, List.mem_of_find?_eq_some htarget⟩

/-- The steps of a dotted path from an entity. -/
def pathChain? (m : Model) (e : Entity) (path : String) : Option (List Hop) :=
  m.chain? e (pieces '.' path)

/-- The names an entity makes available to a request. -/
def knownNames (m : Model) (e : Entity) : KnownNames :=
  { path := fun path => (m.pathChain? e path).isSome
    aggregate := fun name => e.aggregates.contains name }

/-- The model of a configuration whose declarations fit together. -/
def resolve (c : Configuration) : Except ConfigError Model :=
  match c.check with
  | .error cause => .error cause
  | .ok () => .ok ⟨c.entities.map (entityOf c.relations)⟩

end Model

end EntityService
