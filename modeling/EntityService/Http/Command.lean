import EntityService.Http.Request
import EntityService.Query.Params

/-!
# Commands

What a request asks of the entities of a service.

## Main definitions

* `Route` — what the path of a request points to
* `Command` — what is asked of an entity
* `Order` — what is asked of a service
* `Order.ofRequest` — what a request asks for

## Design notes

Paths are compared segment by segment as they are encoded; no segment may be empty.  A request for
something that exists, by a method that it does not have, is told apart from one for something that
does not exist.
-/

namespace EntityService.Http

open EntityService.Json EntityService.Query

/-- What a path points to: probes of the service, the rows of an entity, many new rows of an entity,
or one row. -/
inductive Route where
  | health
  | ready
  | version
  | rows (segment : String)
  | bulk (segment : String)
  | row (segment key : String)
  deriving DecidableEq, Repr

/-- What the segments of a path point to. -/
def Route.of? : List String → Option Route
  | ["", "health"] => some .health
  | ["", "ready"] => some .ready
  | ["", "version"] => some .version
  | ["", "api", "v1", segment] => if segment = "" then none else some (.rows segment)
  | ["", "api", "v1", segment, key] =>
    if segment = "" || key = "" then none
    else if key = "bulk" then some (.bulk segment)
    else some (.row segment key)
  | _ => none

/-- What is asked of an entity, which is given by its path segment. -/
inductive Command where
  | list (segment : String) (params : Params)
  | read (segment key : String) (params : Params)
  | create (segment : String) (body : Value)
  | createMany (segment : String) (body : Value)
  | update (segment key : String) (body : Value)
  | deleteMany (segment : String) (body : String)
  | delete (segment key : String) (body : String)
  deriving Repr

/-- What is asked of a service.  `absent` and `refused` are requests for something that does not
exist, and by a method that it does not have. -/
inductive Order where
  | health
  | ready
  | version
  | entity (command : Command)
  | absent
  | refused
  | unreadable (cause : Rejection)
  deriving Repr

namespace Route

/-- The methods of what a path points to. -/
def methods : Route → List String
  | health => ["GET"]
  | ready => ["GET"]
  | version => ["GET"]
  | rows _ => ["GET", "POST", "DELETE"]
  | bulk _ => ["POST"]
  | row _ _ => ["GET", "PATCH", "DELETE"]

/-- The same with the texts of its segments, if they are texts. -/
def decoded? : Route → Option Route
  | rows segment => (segmentText? segment).map rows
  | bulk segment => (segmentText? segment).map bulk
  | row segment key => do return row (← segmentText? segment) (← segmentText? key)
  | route => some route

end Route

/-- The parameters of a request. -/
def Request.params (r : Request) : Params := Params.ofList (queryPairs r.target.query)

/-- What is asked with a body, if the body can be read. -/
def withBody {α : Type} (body : Except Rejection α) (command : α → Command) : Order :=
  match body with
  | .ok body => .entity (command body)
  | .error cause => .unreadable cause

/-- What a request asks of what its path points to, by one of its methods. -/
def Route.order (r : Request) : Route → Order
  | health => .health
  | ready => .ready
  | version => .version
  | rows segment =>
    match r.method with
    | "POST" => withBody r.bodyValue (.create segment)
    | "DELETE" => withBody r.bodyText (.deleteMany segment)
    | _ => .entity (.list segment r.params)
  | bulk segment => withBody r.bodyValue (.createMany segment)
  | row segment key =>
    match r.method with
    | "PATCH" => withBody r.bodyValue (.update segment key)
    | "DELETE" => withBody r.bodyText (.delete segment key)
    | _ => .entity (.read segment key r.params)

/-- What a request asks for.  A method that does not exist comes before a segment that is no text,
and that before a body that cannot be read. -/
def Order.ofRequest (r : Request) : Order :=
  match Route.of? r.target.segments with
  | none => .absent
  | some route =>
    if !route.methods.contains r.method then .refused
    else
      match route.decoded? with
      | none => .unreadable .path
      | some route => route.order r

end EntityService.Http
