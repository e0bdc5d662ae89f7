import EntityService.Config.Reader

/-!
# Writing declarations

Declarations as values, with all defaults filled in and absent options as null.

## Main definitions

* `entityValue`, `relationValue` — the value of a declaration
* `Configuration.value` — the value of a configuration
-/

namespace EntityService.Config

open EntityService.Json EntityService.Number EntityService.Query

/-- An option as a value, null when it is absent. -/
def optionValue {α : Type} (write : α → Value) : Option α → Value
  | none => .null
  | some a => write a

/-- A double as a value. -/
def doubleValue (x : Double) : Value := .number (.real x)

/-- A column type as a value. -/
def columnTypeValue : ColumnType → Value
  | .simple name => .string name
  | .parameterized name params =>
    .ofMembers [("name", .string name),
      ("params", optionValue (fun ns => .array (ns.map .ofNat)) params)]

/-- A column as a value. -/
def columnValue (c : ColumnDeclaration) : Value :=
  .ofMembers [("name", .string c.name), ("type", columnTypeValue c.type),
    ("nullable", .bool c.nullable), ("default", optionValue id c.default)]

/-- An active flag as a value. -/
def activeFlagValue (f : ActiveFlag) : Value :=
  .ofMembers [("column", .string f.column), ("value", f.value)]

/-- A default sort as a value. -/
def sortValue (s : SortKey) : Value :=
  .ofMembers [("column", .string s.column), ("direction", .string s.direction)]

/-- A rule as a value. -/
def ruleValue (r : Rule) : Value :=
  .ofMembers [("required", optionValue .bool r.required), ("format", optionValue .string r.format),
    ("max_length", optionValue .ofNat r.maxLength), ("min_length", optionValue .ofNat r.minLength),
    ("pattern", optionValue .string r.pattern), ("allowed", optionValue .array r.allowed),
    ("minimum", optionValue doubleValue r.minimum), ("maximum", optionValue doubleValue r.maximum)]

/-- An entity as a value. -/
def entityValue (e : EntityDeclaration) : Value :=
  .ofMembers [("id", .string e.id), ("schema", .string e.schema), ("table", .string e.table),
    ("path_segment", .string e.pathSegment), ("primary_key", .string e.primaryKey),
    ("created_at", .string e.createdAt), ("updated_at", .string e.updatedAt),
    ("columns", .array (e.columns.map columnValue)),
    ("filterable_fields", .ofStrings e.filterableFields),
    ("active_flag", optionValue activeFlagValue e.activeFlag),
    ("default_sort", optionValue sortValue e.defaultSort),
    ("aggregates", .ofStrings e.aggregates), ("operations", .ofStrings e.operations),
    ("sensitive_columns", .ofStrings e.sensitiveColumns),
    ("validation", .object (e.validation.map fun (column, rule) => (column, ruleValue rule))),
    ("page_size", .ofNat e.pageSize)]

/-- The name of a relation kind. -/
def RelationKind.name : RelationKind → String
  | .toOne => "to_one"
  | .toMany => "to_many"

/-- A relation as a value. -/
def relationValue (r : RelationDeclaration) : Value :=
  .ofMembers [("id", .string r.id), ("name", .string r.name),
    ("from_entity_id", .string r.fromEntity), ("to_entity_id", .string r.toEntity),
    ("kind", .string r.kind.name), ("local_key", .string r.localKey),
    ("foreign_key", .string r.foreignKey)]

namespace Configuration

/-- The entities of a configuration as a value. -/
def entitiesValue (c : Configuration) : Value := .array (c.entities.map entityValue)

/-- The relations of a configuration as a value. -/
def relationsValue (c : Configuration) : Value := .array (c.relations.map relationValue)

/-- A configuration as a value. -/
def value (c : Configuration) : Value :=
  .ofMembers [("entities", c.entitiesValue), ("relations", c.relationsValue)]

end Configuration

end EntityService.Config
