import Vitals.Http.Client
import Vitals.Published
import Vitals.Text.Blank
import Vitals.Wire.Json

/-!
# The stats server

What the server answers to each request. It reads what has been published and changes nothing,
so `Server.handle` is a function of the published batches and the request alone.
-/

namespace Vitals.Server

open Http

/-- The content type of a plain answer. -/
def textType : String := "text/plain; charset=utf-8"

/-- The greatest number of bytes in the body of a request. -/
def maxBody : Nat := 65536

/-! ## Answers -/

/-- A plain answer. -/
def plain (status : Status) (text : String) : Response where
  status
  contentType := some textType
  body := .ofText text

/-- An answer that is JSON. -/
def json (status : Status) (document : Json) : Response where
  status
  contentType := some jsonType
  body := .ofText document.compact

/-- The answer that carries a refusal. -/
def refuse (refusal : Refusal) : Response :=
  let status : Status := ⟨refusal.status⟩
  json status <| .object
    [("id", .text refusal.id), ("code", .integer status.code), ("detail", .text refusal.message),
     ("status", .text (status.reason?.getD "Bad Request"))]

/-! ## Requests -/

/-- The request that a body writes, or the answer to a body that writes none. A body of blanks
asks for the latest snapshots of every service. -/
def readBody (body : Body) : Except Response ReadRequest :=
  if maxBody < body.bytes.length then
    .error (plain .payloadTooLarge s!"request body exceeds {maxBody} bytes")
  else if !body.complete then .error (plain .badRequest "unreadable body")
  else if body.bytes.all isAsciiBlank then .ok {}
  else
    match ReadRequest.codec.parse body.bytes with
    | .ok request => .ok request
    | .error fault =>
      .error (plain .badRequest s!"invalid request body: {fault.report body.bytes}")

/-- What the server knows to do. -/
inductive Route where
  | read | write | stream | health
deriving Repr, DecidableEq

namespace Route

/-- The route of a path. -/
def ofPath? : String → Option Route
  | "/stats/read" => some .read
  | "/stats/write" => some .write
  | "/stats/stream" => some .stream
  | "/health" | "/healthz" => some .health
  | _ => none

/-- The method by which a route is taken. -/
def method : Route → String
  | health => "GET"
  | _ => "POST"

end Route

/-- The answer to a read. -/
def read (published : Published) (limit : Nat) (body : Body) : Response :=
  match readBody body with
  | .ok request => json .ok (ReadResponse.codec.toJson (published.read limit request))
  | .error response => response

/-- The answer to a request; the history is read up to `limit` batches back. -/
def handle (published : Published) (limit : Nat) (request : Request) : Response :=
  match Route.ofPath? request.path with
  | none => plain .notFound "Not Found"
  | some route =>
    if request.method = route.method then
      match route with
      | .read => read published limit request.body
      | .write => refuse (refuseWrite {})
      | .stream => refuse (refuseStream {})
      | .health => plain .ok "OK"
    else plain .methodNotAllowed "Method Not Allowed"

/-- A network on which such a server answers every request. -/
def network (published : Published) (limit : Nat) : Network :=
  fun _ request => .answered (handle published limit request)

end Vitals.Server
