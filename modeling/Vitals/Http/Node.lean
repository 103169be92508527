import Vitals.Collector.Node
import Vitals.Endpoint
import Vitals.Http.Client
import Vitals.Json.Printer
import Vitals.Json.Reader
import Vitals.Text.Blank

/-!
# Nodes that speak HTTP

A call to such a node is a request whose path names the service and the method and whose body
is what is asked; the answer is the body of a response with a status of success.
-/

namespace Vitals.Http

/-- The protocol of nodes that are called so, as their metadata name it. -/
def protocol : String := "http"

/-- The question that a call is. -/
def callQuestion (address : String) (call : Call) : Question :=
  .postJson (Endpoint.call address call.service call.method) call.body.compact

/-- What a response to a call gives. -/
def callAnswer (response : Response) : Except AccessFault Json :=
  if response.status.isSuccess then
    (response.decode Json.parse).mapError ClientFault.toAccessFault
  else
    let detail := String.ofList (trim response.detail.toList)
    .error (.http s!"{response.status.text}: {detail}")

/-- How the node at an address takes a call. Only the one who waits gives up a call to which no
answer comes. -/
def nodeBehaviour (network : Network) (address : String) (call : Call) : Behaviour :=
  match ask network (callQuestion address call) with
  | .ok response =>
    match callAnswer response with
    | .ok body => .answer body false 0
    | .error fault => .fail fault.toCallFault 0
  | .error (.silent _) => .hang
  | .error fault => .fail fault.toAccessFault.toCallFault 0

end Vitals.Http
