import EntityService.Model.Entity
import EntityService.Pattern.Reader
import EntityService.Time.Instant
import EntityService.Uuid
import EntityService.Validation.Violation

/-!
# Checking data

The check of data against the rules and columns of an entity.

## Main definitions

* `Mode` — data for a new row, or for some columns of a row that is there
* `fits` — a text has a named format
* `valueViolation?` — the first broken part of a rule
* `violation?` — the first broken rule of an entity

## Design notes

Missing columns come first, in the order of declaration; then the rules, in the order of their
columns; then columns that may not be null.  A rule looks at format, length, pattern, allowed values
and bounds, in this order.
-/

namespace EntityService.Validation

open EntityService.Config (Rule)
open EntityService.Json EntityService.Model EntityService.Text

/-- Data for a new row have to be complete; data for a change hold some columns only. -/
inductive Mode where
  | create | update
  deriving DecidableEq, Repr

/-- A text is an address: something before and something after the first at sign. -/
def isAddress (s : String) : Bool :=
  match cutOnce '@' s with
  | some (before, after) => before ≠ "" && after ≠ ""
  | none => false

/-- A text has the format with a name; unknown formats have no conditions. -/
def fits (format s : String) : Bool :=
  match lowercase format with
  | "email" => isAddress s
  | "uuid" => (Uuid.read? s).isSome
  | "date" => (Time.Date.read? s).isSome
  | "datetime" => Time.isInstantText s
  | _ => true

/-- The broken part of a rule on the pattern of a text. -/
def patternViolation? (column s pattern : String) : Option Violation :=
  match Pattern.read? pattern with
  | none => some (.unreadablePattern column)
  | some p => if p.occursIn s then none else some (.unmatched column)

/-- The first broken part of a rule on the length and the pattern of a text. -/
def textViolation? (column s : String) (rule : Rule) : Option Violation :=
  ((rule.maxLength.filter (· < s.length)).map (.tooLong column)) <|>
  ((rule.minLength.filter (s.length < ·)).map (.tooShort column)) <|>
  (rule.pattern.bind (patternViolation? column s))

/-- A value is an allowed one.  Numbers are compared by their values, whatever their kind. -/
def isAllowed (v allowed : Value) : Bool :=
  match v, allowed with
  | .number a, .number b => a.toDouble.sameNumber b.toDouble
  | _, _ => v.same allowed

/-- The broken part of a rule on the allowed values. -/
def choiceViolation? (column : String) (v : Value) (rule : Rule) : Option Violation :=
  (rule.allowed.filter fun allowed => !allowed.any (isAllowed v)).map (.notAllowed column)

/-- The first broken part of a rule on the bounds of a number. -/
def boundViolation? (column : String) (v : Value) (rule : Rule) : Option Violation :=
  match v with
  | .number n =>
    ((rule.minimum.filter fun least => n.toDouble.order? least == some .lt).map
      (.tooSmall column)) <|>
    ((rule.maximum.filter fun most => n.toDouble.order? most == some .gt).map (.tooLarge column))
  | _ => none

/-- The first broken part of a rule on a value that is not null. -/
def presentViolation? (column : String) (v : Value) (rule : Rule) : Option Violation :=
  (match v with
    | .string s =>
      ((rule.format.filter fun format => !fits format s).map (.malformed column)) <|>
        textViolation? column s rule
    | _ => none) <|>
  choiceViolation? column v rule <|>
  boundViolation? column v rule

/-- The first broken part of a rule on a value. -/
def valueViolation? (column : String) (v : Value) (rule : Rule) : Option Violation :=
  if v.isNull then (if rule.required = some true then some (.missing column) else none)
  else presentViolation? column v rule

/-- The first broken part of a rule on data. -/
def ruleViolation? (mode : Mode) (data : Record) (column : String) (rule : Rule) :
    Option Violation :=
  match Record.get? data column with
  | some v => valueViolation? column v rule
  | none =>
    if mode = .create ∧ rule.required = some true then some (.missing column) else none

/-- The columns that data for a new row have to give: those that may not be null and have no
default, apart from the primary key and the timestamps. -/
def requiredColumns (e : Entity) : List String :=
  (e.columns.filter fun c =>
    !c.nullable && !c.hasDefault && c.name ∉ [e.primaryKey, e.createdAt, e.updatedAt]).map (·.name)

/-- The first required column that data do not give. -/
def missingColumn? (e : Entity) (data : Record) : Option String :=
  (requiredColumns e).find? fun column => (Record.cell data column).isNull

/-- A key of data has the value null, though its column may not be null. -/
def nulledColumn? (e : Entity) (data : Record) : Option String :=
  (data.find? fun (key, v) => v.isNull && (e.column? key).any fun c => !c.nullable).map Prod.fst

/-- The first broken rule of an entity. -/
def violation? (e : Entity) (data : Record) (mode : Mode) : Option Violation :=
  (if mode = .create then (missingColumn? e data).map Violation.missing else none) <|>
  (e.validation.findSome? fun (column, rule) => ruleViolation? mode data column rule) <|>
  (nulledColumn? e data).map Violation.isNull

end EntityService.Validation
