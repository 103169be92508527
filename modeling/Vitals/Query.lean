import Vitals.Duration.Text
import Vitals.Endpoint
import Vitals.Http.Client
import Vitals.Wire.Json

/-!
# Reading a stats server

The client of the stats server: it asks once and gives up after a time that is written as a
duration.
-/

namespace Vitals

/-- Why a text is not a time to wait. -/
inductive TimeoutFault where
  | malformed (text : String) (fault : DurationFault)
  | zero (text : String)
deriving Repr, DecidableEq, Inhabited

namespace TimeoutFault

/-- The wording of the fault, the outermost cause first. -/
def causes : TimeoutFault → List String
  | malformed text fault => [s!"invalid --timeout: {text}", fault.message]
  | zero text => [s!"invalid --timeout: {text} (must be non-zero)"]

end TimeoutFault

/-- The time to wait that a text writes. -/
def requestTimeout (text : String) : Except TimeoutFault Duration :=
  match Duration.parse text with
  | .error fault => .error (.malformed text fault)
  | .ok timeout => if timeout.isZero then .error (.zero text) else .ok timeout

/-- Why a stats server gives no snapshots. -/
inductive QueryFault where
  /-- No answer came. -/
  | unreached (url : String) (fault : Http.ClientFault)
  /-- The server refused. -/
  | refused (status : Http.Status) (detail : String)
  /-- The answer cannot be read. -/
  | undecodable (fault : Http.ClientFault)
deriving Repr, DecidableEq, Inhabited

namespace QueryFault

/-- The wording of the fault, the outermost cause first. -/
def causes : QueryFault → List String
  | unreached url fault => [s!"failed to reach {url}", fault.message]
  | refused status detail => [s!"server returned {status.text}: {detail}"]
  | undecodable fault => ["failed to decode read response", fault.message]

end QueryFault

/-- The question that a request to the stats server at an address is. -/
def queryQuestion (address : String) (request : ReadRequest) : Http.Question :=
  .postJson (Endpoint.read address) (ReadRequest.codec.text request)

/-- What the stats server at an address answers to a request. -/
def query (network : Http.Network) (address : String) (request : ReadRequest) :
    Except QueryFault ReadResponse :=
  match Http.ask network (queryQuestion address request) with
  | .error fault => .error (.unreached (Endpoint.read address) fault)
  | .ok response =>
    if response.status.isSuccess then
      (response.decode ReadResponse.codec.parse).mapError .undecodable
    else .error (.refused response.status (String.ofList (trim response.detail.toList)))

end Vitals
