import EntityService.Config.Declaration
import EntityService.Config.Error

/-!
# Checking a configuration

Whether the declarations of a configuration fit together.

## Main definitions

* `hasColumn` — an entity has a column
* `checkEntities`, `checkRelations`, `checkAggregates` — the three passes
* `Configuration.check` — the first thing that is wrong

## Design notes

An entity without declared columns takes any column.  The two timestamps are columns of every
entity.
-/

namespace EntityService.Config

/-- An entity has a column of the given name. -/
def hasColumn (e : EntityDeclaration) (name : String) : Bool :=
  e.columns.isEmpty || name == e.createdAt || name == e.updatedAt ||
    e.columns.any fun c => c.name == name

/-- Check an entity alone: its primary key and its active flag are columns. -/
def checkColumns (e : EntityDeclaration) : Except ConfigError Unit :=
  if !hasColumn e e.primaryKey then .error (.invalidPrimaryKey e.id e.primaryKey)
  else
    match e.activeFlag with
    | none => .ok ()
    | some flag =>
      if hasColumn e flag.column then .ok ()
      else .error (.missingReference "active flag column" (e.id ++ "." ++ flag.column))

/-- Check the entities that come after those `before`: ids and path segments are new, keys and flags
are columns. -/
def checkEntities (before : List EntityDeclaration) :
    List EntityDeclaration → Except ConfigError Unit
  | [] => .ok ()
  | e :: rest =>
    if before.any fun d => d.id == e.id then .error (.duplicateEntity e.id)
    else if before.any fun d => d.pathSegment == e.pathSegment then
      .error (.duplicatePathSegment e.pathSegment)
    else
      match checkColumns e with
      | .error cause => .error cause
      | .ok () => checkEntities (before ++ [e]) rest

/-- The entity with an id. -/
def entityById (entities : List EntityDeclaration) (id : String) :
    Except ConfigError EntityDeclaration :=
  match entities.find? fun e => e.id == id with
  | some e => .ok e
  | none => .error (.missingReference "entity" id)

/-- Check a relation alone: its two entities exist and have its keys as columns. -/
def checkEnds (entities : List EntityDeclaration) (r : RelationDeclaration) :
    Except ConfigError Unit := do
  let source ← entityById entities r.fromEntity
  let target ← entityById entities r.toEntity
  if hasColumn source r.localKey && hasColumn target r.foreignKey then .ok ()
  else .error (.missingReference "relation key column" r.id)

/-- Check the relations that come after those `before`: names are new in their entity, entities and
keys exist. -/
def checkRelations (entities : List EntityDeclaration) (before : List RelationDeclaration) :
    List RelationDeclaration → Except ConfigError Unit
  | [] => .ok ()
  | r :: rest =>
    if before.any fun s => s.fromEntity == r.fromEntity && s.name == r.name then
      .error (.duplicateRelation r.name r.fromEntity)
    else
      match checkEnds entities r with
      | .error cause => .error cause
      | .ok () => checkRelations entities (before ++ [r]) rest

/-- The aggregates of an entity that are no relations of it. -/
def unknownAggregates (relations : List RelationDeclaration) (e : EntityDeclaration) :
    List String :=
  e.aggregates.filter fun name =>
    !relations.any fun r => r.fromEntity == e.id && r.name == name

/-- Check that all aggregates are relations. -/
def checkAggregates (relations : List RelationDeclaration) :
    List EntityDeclaration → Except ConfigError Unit
  | [] => .ok ()
  | e :: rest =>
    match unknownAggregates relations e with
    | name :: _ => .error (.unknownAggregate e.id name)
    | [] => checkAggregates relations rest

/-- The first thing that is wrong with a configuration: first the entities, then the relations, then
the aggregates. -/
def Configuration.check (c : Configuration) : Except ConfigError Unit := do
  checkEntities [] c.entities
  checkRelations c.entities [] c.relations
  checkAggregates c.relations c.entities

end EntityService.Config
