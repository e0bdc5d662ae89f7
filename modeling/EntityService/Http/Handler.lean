import EntityService.Http.Command
import EntityService.Http.Response
import EntityService.Repository.Terminal

/-!
# Handling of commands

What a service does with its entities when it is asked to.

## Main definitions

* `readKey`, `readKeys` — keys of rows, from a path and from a body
* `Command.run` — do what is asked of an entity

## Design notes

A command is looked at in this order: the entity, the permission, the key, the body, the rows.
Columns that are never shown are taken out of every row before it is given out.
-/

namespace EntityService.Http

open EntityService.Json EntityService.Model EntityService.Query EntityService.Store

/-- The largest count of rows that are added at once. -/
def maxBulk : Nat := 100

/-- A row as it is shown. -/
def shownRow (e : Entity) : Value → Value
  | .object row => .object (e.withoutHidden row)
  | v => v

/-! ### Keys -/

/-- The key that a text denotes, by the type of the keys. -/
def readKey (type : KeyType) (s : String) : Except Fault Value :=
  match type with
  | .uuid =>
    match Uuid.read? s with
    | some u => .ok (.string u.text)
    | none => .error (.uuid s)
  | .text => .ok (.string s)
  | _ =>
    match Number.readInteger64? (Text.trim s) with
    | some n => .ok (.ofInt n)
    | none => .error (.key s)

/-- The key that a value in a body denotes.  Numbers are taken as they are. -/
def readBodyKey (type : KeyType) : Value → Except Fault Value
  | .string s => readKey type s
  | .number n => .ok (.number n)
  | v => .error (.key v.text)

/-- The member of an object under a key. -/
def member? (v : Value) (key : String) : Option Value :=
  match v with
  | .object members => Record.get? members key
  | _ => none

/-- The keys that a body lists. -/
def readKeys (type : KeyType) (body : String) : Except Fault (List Value) :=
  match readValue? body with
  | none => .error .malformedBody
  | some v =>
    match member? v "ids" with
    | some (.array items) => items.mapM (readBodyKey type)
    | _ => .error .noKeys

/-- The object that a body is. -/
def readObject : Value → Except Fault Record
  | .object members => .ok members
  | _ => .error .notAnObject

/-- The objects that a body lists. -/
def readObjects : Value → Except Fault (List Record)
  | .array items =>
    if maxBulk < items.length then .error (.tooManyItems maxBulk) else items.mapM readObject
  | _ => .error .notAnArray

/-- The white space of ASCII that a body may consist of. -/
def isEmptyBody (body : String) : Bool :=
  body.toList.all fun c => c ∈ [' ', '\t', '\n', '\x0c', '\r']

/-! ### Commands -/

variable {σ α : Type}

/-- Go on with what has been read, or fail because of what is wrong with it. -/
def accepted : Except Fault α → Action σ α
  | .ok a => pure a
  | .error fault => Action.fail (.badRequest fault)

/-- The entity with a path segment, if it allows an operation. -/
def entityFor (m : Model) (segment operation : String) : Action σ Entity := do
  let e ← Action.ofOption (.notFound (.segment segment)) (m.entityAt? segment)
  if e.allows operation then pure e
  else Action.fail (.badRequest (.forbidden operation e.pathSegment))

/-- Run an operation of a repository on a store. -/
def inSession (r : Repository) (operation : Action (Session σ) α) : Action σ α := fun store =>
  let (result, s) := operation ⟨r, store⟩
  (result, s.store)

/-- The letters of ASCII do not count when a parameter turns pages off. -/
def wantsPages (params : Params) : Bool :=
  (params.get? "paginate").all fun v => v.map Char.toLower != "false"

variable [Storage σ]

/-- The rows that a request asks for, page by page or all of them. -/
def listRows (m : Model) (segment : String) (params : Params) : Action σ Response := do
  let e ← entityFor m segment "read"
  let r := (Repository.of m e).withParams params
  if wantsPages params then
    let page ← inSession r Session.search
    return .page (page.mapRows (shownRow e))
  else
    let rows ← inSession r (Session.all [])
    return .many 200 (rows.map (shownRow e))

/-- One row with the relations that a request asks for. -/
def readRow (m : Model) (segment key : String) (params : Params) : Action σ Response := do
  let e ← entityFor m segment "read"
  let id ← accepted (readKey e.keyType key)
  let row ← inSession ((Repository.of m e).withParams params).loadRequested (Session.find id [])
  return .one 200 (shownRow e row)

/-- Add a row. -/
def createRow (m : Model) (segment : String) (body : Value) : Action σ Response := do
  let e ← entityFor m segment "create"
  let data ← accepted (readObject body)
  let row ← inSession (Repository.of m e) (Session.create data)
  return .one 201 (shownRow e row)

/-- Add many rows. -/
def createRows (m : Model) (segment : String) (body : Value) : Action σ Response := do
  let e ← entityFor m segment "bulk_create"
  let items ← accepted (readObjects body)
  let rows ← inSession (Repository.of m e) (Session.createMultiple items)
  return .many 201 (rows.map (shownRow e))

/-- Change a row. -/
def updateRow (m : Model) (segment key : String) (body : Value) : Action σ Response := do
  let e ← entityFor m segment "update"
  let id ← accepted (readKey e.keyType key)
  let data ← accepted (readObject body)
  let row ← inSession (Repository.of m e) (Session.updateById id data true)
  return .one 200 (shownRow e row)

/-- Remove the rows with the keys that a body lists, and give their count. -/
def deleteListed (m : Model) (e : Entity) (body : String) : Action σ Response := do
  let ids ← accepted (readKeys e.keyType body)
  let count ← inSession (Repository.of m e) (Session.deleteMultipleById ids)
  return .one 200 (.ofMembers [("deleted", .ofNat count)])

/-- Remove the rows of an entity with the keys that a body lists. -/
def deleteRows (m : Model) (segment body : String) : Action σ Response := do
  deleteListed m (← entityFor m segment "delete") body

/-- Remove a row.  With a body, the key zero stands for the keys that the body lists. -/
def deleteRow (m : Model) (segment key body : String) : Action σ Response := do
  let e ← entityFor m segment "delete"
  if Text.trim key = "0" ∧ !isEmptyBody body then deleteListed m e body
  else
    let id ← accepted (readKey e.keyType key)
    let _ ← inSession (Repository.of m e) (Session.deleteById id)
    return .bare 204

/-- Do what is asked of an entity. -/
def Command.run (m : Model) : Command → Action σ Response
  | .list segment params => listRows m segment params
  | .read segment key params => readRow m segment key params
  | .create segment body => createRow m segment body
  | .createMany segment body => createRows m segment body
  | .update segment key body => updateRow m segment key body
  | .deleteMany segment body => deleteRows m segment body
  | .delete segment key body => deleteRow m segment key body

end EntityService.Http
