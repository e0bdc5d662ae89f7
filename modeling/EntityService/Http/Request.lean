import EntityService.Http.MediaType
import EntityService.Http.Uri

/-!
# Requests

Requests to a service, and what can be read from them.

## Main definitions

* `Request` — a method, a target, a media type and a body
* `Rejection` — what cannot be read from a request
* `Request.bodyText`, `Request.bodyValue` — the body as text and as a value

## Design notes

A body is looked at in this order: its media type, its size, its text.  Whatever follows the value
at the start of a body is not looked at.

A body is a text here: octets that are no UTF-8 have no counterpart, and neither has an announced
length.  A request that announces a body of more than `maxBodySize` octets would be refused with
status 413 before anything else is looked at, whatever its method; here the size is that of the body
itself, and is looked at by the operations that read it.
-/

namespace EntityService.Http

open EntityService.Json

/-- A request.  The media type is absent when the request does not name one. -/
structure Request where
  method : String
  target : Target
  mediaType : Option String
  body : String
  deriving DecidableEq, Repr

/-- What cannot be read from a request: a segment of its path, the media type of its body, a body
that is too large, or a body that is no JSON. -/
inductive Rejection where
  | path | mediaType | size | body
  deriving DecidableEq, Repr

/-- The largest size of a body in octets. -/
def maxBodySize : Nat := 0x200000

namespace Request

/-- The body, if it is not too large. -/
def bodyText (r : Request) : Except Rejection String :=
  if maxBodySize < r.body.utf8ByteSize then .error .size else .ok r.body

/-- The value at the start of the body. -/
def bodyValue (r : Request) : Except Rejection Value :=
  if !r.mediaType.any isJsonType then .error .mediaType
  else
    match r.bodyText with
    | .error cause => .error cause
    | .ok text =>
      match readFirstValue? text with
      | some v => .ok v
      | none => .error .body

end Request

end EntityService.Http
