import Vitals.Http.Status
import Vitals.Text.Utf8
import Vitals.Url.Basic

/-!
# Requests and answers

What goes over the network. A `Network` says what becomes of each request; nothing else is
known of it, so that whatever is said of a client or of a registry holds of every network.
-/

namespace Vitals.Http

/-- The body of a message as it arrived. -/
structure Body where
  bytes : List UInt8 := []
  /-- Whether the end of the body arrived. -/
  complete : Bool := true
deriving Repr, DecidableEq, Inhabited

/-- The body that a text makes. -/
def Body.ofText (text : String) : Body := { bytes := Utf8.encode text }

/-- A request as a server gets it. -/
structure Request where
  method : String
  /-- The path, and the query after a question mark. -/
  target : String
  contentType : Option String := none
  body : Body := {}
deriving Repr, DecidableEq, Inhabited

/-- The path that is asked for; a fragment behind it does not count. -/
def Request.path (request : Request) : String :=
  String.ofList (request.target.toList.takeWhile fun c => c ≠ '?' && c ≠ '#')

/-- The answer of a server. -/
structure Response where
  status : Status
  contentType : Option String := none
  body : Body := {}
deriving Repr, DecidableEq, Inhabited

/-- What becomes of a request. -/
inductive Outcome where
  | answered (response : Response)
  /-- No connection came about. -/
  | unreachable
  /-- The connection was closed without an answer. -/
  | closed
  /-- No answer comes. -/
  | silent
deriving Repr, DecidableEq, Inhabited

/-- What becomes of each request to each place. -/
abbrev Network := Url → Request → Outcome

/-- The network on which no connection comes about. -/
def Network.down : Network := fun _ _ => .unreachable

end Vitals.Http
