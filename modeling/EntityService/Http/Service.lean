import EntityService.Http.Handler

/-!
# Services

A service answers requests about the entities of a model.

## Main definitions

* `Service` — a model, and whether the service tells if it is ready
* `Service.answer` — the response to a request, and the store after it

## Design notes

A request by the method `HEAD` is answered like one by `GET`, without the body.
-/

namespace EntityService

open EntityService.Http EntityService.Json EntityService.Store

/-- A service for the entities of a model.  The flag says whether it tells if it is ready. -/
structure Service where
  model : Model
  tellsReady : Bool := true

namespace Service

/-- The service is there. -/
def healthResponse : Response := ⟨200, .value (.ofMembers [("status", .string "ok")])⟩

/-- The name and the version of the service. -/
def versionResponse : Response :=
  ⟨200, .value (.ofMembers [("name", .string "repokit"), ("version", .string "0.1.0")])⟩

/-- Whether the store can be used. -/
def readyResponse : Except Error Unit → Response
  | .ok _ => ⟨200, .value (.ofMembers [("status", .string "ok"), ("storage", .string "ok")])⟩
  | .error _ =>
    ⟨503, .value (.ofMembers [("status", .string "degraded"), ("storage", .string "unavailable")])⟩

variable {σ : Type} [Storage σ]

/-- Carry out what is asked. -/
def carryOut (service : Service) (order : Order) (store : σ) : Response × σ :=
  match order with
  | .health => (healthResponse, store)
  | .version => (versionResponse, store)
  | .ready =>
    let (result, store) := Storage.ping store
    (readyResponse result, store)
  | .absent => (.bare 404, store)
  | .refused => (.bare 405, store)
  | .unreadable cause => (cause.response, store)
  | .entity command =>
    match command.run service.model store with
    | (.ok response, store) => (response, store)
    | (.error cause, store) => (errorResponse cause, store)

/-- A request asks for something that the service does not have. -/
def lacks (service : Service) (r : Request) : Bool :=
  !service.tellsReady && Route.of? r.target.segments == some .ready

/-- What a request asks of the service. -/
def orderOf (service : Service) (r : Request) : Order :=
  if service.lacks r then .absent else .ofRequest r

/-- The response to a request, and the store after it. -/
def answer (service : Service) (r : Request) (store : σ) : Response × σ :=
  if r.method = "HEAD" then
    let (response, store) := service.carryOut (service.orderOf { r with method := "GET" }) store
    (response.withoutContent, store)
  else service.carryOut (service.orderOf r) store

end Service

end EntityService
