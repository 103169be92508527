import Vitals.Call
import Vitals.Registry.Basic

/-!
# On the way to a registry or a node

What can go wrong between a question and its answer, and what that means to somebody who asked
a registry or called a node.
-/

namespace Vitals

/-- Why a question got no answer. -/
inductive AccessFault where
  /-- The answer has a status of failure, or the question could not be sent. -/
  | http (detail : String)
  /-- The answer cannot be read. -/
  | parse (detail : String)
  /-- No connection came about. -/
  | connection (detail : String)
  /-- No answer came in time. -/
  | timeout
  /-- There is no service of the name. -/
  | notFound (name : String)
  /-- A file cannot be read. -/
  | io (detail : String)
deriving Repr, DecidableEq, Inhabited

namespace AccessFault

/-- The wording of the fault. -/
def message : AccessFault → String
  | http detail => s!"HTTP request failed: {detail}"
  | parse detail => s!"Failed to parse response: {detail}"
  | connection detail => s!"Connection failed: {detail}"
  | timeout => "Request timed out"
  | notFound name => s!"Service not found: {name}"
  | io detail => s!"I/O error: {detail}"

/-- What the fault means for a registry. -/
def toRegistryFault : AccessFault → RegistryFault
  | notFound name => .notFound name
  | parse detail => .invalid detail
  | fault => .unavailable fault.message

/-- What the fault means for a call. -/
def toCallFault : AccessFault → CallFault
  | http detail => .remote detail
  | parse detail => .decode detail
  | fault => .transport fault.message

end AccessFault

end Vitals
