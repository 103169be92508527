import Vitals.Duration.Basic
import Vitals.Json.Basic

/-!
# Calls to nodes

A call asks a node of a service for something and may fail in four ways.
-/

namespace Vitals

/-- What is asked of a node. -/
structure Call where
  service : String
  method : String
  body : Json
deriving Repr, Inhabited

/-- Why a call gives no answer. -/
inductive CallFault where
  /-- There was no answer in time. -/
  | timeout (limit : Duration)
  /-- The node cannot be reached. -/
  | transport (detail : String)
  /-- The node refused. -/
  | remote (detail : String)
  /-- The answer is not what was asked for. -/
  | decode (detail : String)
deriving Repr, DecidableEq, Inhabited

/-- The wording of the fault. -/
def CallFault.message : CallFault → String
  | timeout limit => s!"call timed out after {limit.text}"
  | transport detail => s!"transport error: {detail}"
  | remote detail => s!"remote error: {detail}"
  | decode detail => s!"failed to decode response: {detail}"

end Vitals
