import EntityService.Error
import EntityService.Http.Request
import EntityService.Query.Page

/-!
# Responses

Responses of a service.

## Main definitions

* `Response` — a status and a body
* `Response.one`, `Response.many`, `Response.page` — what was asked for
* `Error.response`, `Rejection.response` — what went wrong
-/

namespace EntityService.Http

open EntityService.Json EntityService.Query

/-- The body of a response: nothing, a value, or a text. -/
inductive Content where
  | empty
  | value (v : Value)
  | text (s : String)
  deriving Repr

/-- A response. -/
structure Response where
  status : Nat
  content : Content
  deriving Repr

namespace Response

/-- A response without a body. -/
def bare (status : Nat) : Response := ⟨status, .empty⟩

/-- One thing. -/
def one (status : Nat) (data : Value) : Response :=
  ⟨status, .value (.ofMembers [("data", data)])⟩

/-- A list of things with their count. -/
def many (status : Nat) (data : List Value) : Response :=
  ⟨status, .value (.ofMembers [("data", .array data),
    ("meta", .ofMembers [("count", .ofNat data.length)])])⟩

/-- A page of things with its totals. -/
def page (p : Page Value) : Response :=
  ⟨200, .value (.ofMembers [("data", .array p.rows), ("total", .ofNat p.total),
    ("per_page", .ofNat p.perPage), ("current_page", .ofNat p.current),
    ("last_page", .ofNat p.last)])⟩

/-- The same response without its body. -/
def withoutContent (r : Response) : Response := bare r.status

end Response

/-- The status of an error and the code that goes with it. -/
def statusOf : Error → Nat × String
  | .notFound _ => (404, "not_found")
  | .invalid _ => (422, "validation_error")
  | .badRequest _ => (400, "bad_request")
  | .database .noRow => (404, "not_found")
  | .database cause =>
    if cause.isRefusedRow then (422, "validation_error") else (500, "database_error")

/-- What is said about an error. -/
def errorResponse (e : Error) : Response :=
  let (status, code) := statusOf e
  ⟨status, .value (.ofMembers [("error",
    .ofMembers [("code", .string code), ("message", .string e.message)])])⟩

/-- What is said about a request that cannot be read. -/
def Rejection.response : Rejection → Response
  | .path => ⟨400, .text "a segment of the path is no text"⟩
  | .mediaType => ⟨415, .text "the body is not declared as JSON"⟩
  | .size => ⟨413, .text "the body is too large"⟩
  | .body => ⟨400, .text "the body is no JSON"⟩

end EntityService.Http
