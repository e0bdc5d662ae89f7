/-!
# Configuration errors

What can be wrong with a configuration.

## Main definitions

* `ConfigError` — the causes
* `ConfigError.message` — the message of a cause
-/

namespace EntityService.Config

/-- What can be wrong with a configuration. -/
inductive ConfigError where
  /-- The text of a part does not hold declarations. -/
  | malformed (part : String)
  /-- The file of a part cannot be read. -/
  | unreadable (file : String)
  /-- Something refers to what does not exist. -/
  | missingReference (kind id : String)
  /-- The primary key is no column. -/
  | invalidPrimaryKey (entity column : String)
  /-- Two entities have one path segment. -/
  | duplicatePathSegment (segment : String)
  /-- An aggregate is no relation. -/
  | unknownAggregate (entity name : String)
  /-- Two entities have one id. -/
  | duplicateEntity (id : String)
  /-- Two relations of an entity have one name. -/
  | duplicateRelation (name entity : String)
  deriving DecidableEq, Repr

/-- The message of a configuration error. -/
def ConfigError.message : ConfigError → String
  | malformed part => "config load: " ++ part
  | unreadable file => "config load: unreadable " ++ file
  | missingReference kind id => "missing reference: " ++ kind ++ " id '" ++ id ++ "'"
  | invalidPrimaryKey entity column =>
    "invalid primary key: entity " ++ entity ++ " column " ++ column
  | duplicatePathSegment segment => "duplicate path segment: " ++ segment
  | unknownAggregate entity name =>
    "entity " ++ entity ++ " declares aggregate '" ++ name ++ "' with no matching relation"
  | duplicateEntity id => "validation: duplicate entity id: " ++ id
  | duplicateRelation name entity =>
    "validation: duplicate relation " ++ name ++ " on entity " ++ entity

end EntityService.Config
