import Vitals.Call
import Vitals.Snapshot
import Vitals.Wire.Json

/-!
# Nodes that are called

How a node takes a call (`Behaviour`), what becomes of the call when the caller gives up after
a time (`Behaviour.settle`), and the nodes behind a client with the number of calls that each
of them has had (`Fleet`). Times are whole milliseconds.
-/

namespace Vitals

/-- How a node takes a call. -/
inductive Behaviour where
  /-- It answers after `delay`; with `counted` the answer's `requests` is the number of calls
  it has had. -/
  | answer (body : Json) (counted : Bool) (delay : Nat)
  | fail (fault : CallFault) (delay : Nat)
  /-- It never answers. -/
  | hang
  /-- The work on the call breaks off after `delay`. -/
  | crash (delay : Nat)
deriving Inhabited

/-- How a call ends. -/
inductive Ending where
  | counters (counters : Counters)
  | fault (fault : CallFault)
  | crash
deriving Repr, DecidableEq, Inhabited

namespace Ending

/-- The end of a call that was answered in time. -/
def ofAnswer (body : Json) : Ending :=
  match Counters.codec.ofJson body with
  | .ok reported => .counters reported
  | .error refused => .fault (.decode refused.message)

end Ending

namespace Behaviour

/-- An answer with the number of calls in it. -/
def countedBody (calls : Nat) : Json → Json
  | .object members =>
    .object ((OrderedMap.ofList members).put "requests" (.integer calls)).entries
  | body => body

/-- After how long the call of number `calls` ends, and how, where the caller gives up after
`limit`. A call that takes exactly as long is not given up. -/
def settle (limit : Duration) (calls : Nat) (behaviour : Behaviour) : Nat × Ending :=
  let within (delay : Nat) (ending : Ending) : Nat × Ending :=
    if delay ≤ limit.millisUp then (delay, ending)
    else (limit.millisUp, .fault (.timeout limit))
  match behaviour with
  | answer body counted delay =>
    within delay (.ofAnswer (if counted then countedBody calls body else body))
  | fail fault delay => within delay (.fault fault)
  | hang => (limit.millisUp, .fault (.timeout limit))
  | crash delay => within delay .crash

/-- The behaviour that comes so many milliseconds later. -/
def after (wait : Nat) : Behaviour → Behaviour
  | answer body counted delay => .answer body counted (wait + delay)
  | fail fault delay => .fail fault (wait + delay)
  | hang => .hang
  | crash delay => .crash (wait + delay)

end Behaviour

/-- The nodes behind a client. -/
structure Fleet where
  /-- The protocol that the client speaks. -/
  protocol : String
  /-- How the node at an address takes a call. -/
  respond : String → Call → Behaviour
  /-- How many calls each address has had. -/
  calls : OrderedMap String Nat := .empty
deriving Inhabited

namespace Fleet

/-- How many calls an address has had. -/
def callsTo (fleet : Fleet) (address : String) : Nat := (fleet.calls.get? address).getD 0

/-- Makes the node at an address take calls in another way from now on. -/
def behave (fleet : Fleet) (address : String) (behaviour : Behaviour) : Fleet :=
  { fleet with
    respond := fun other call => if other = address then behaviour else fleet.respond other call }

/-- Takes note of a call to an address. -/
def noteCall (fleet : Fleet) (address : String) : Fleet :=
  { fleet with calls := fleet.calls.put address (fleet.callsTo address + 1) }

end Fleet

end Vitals
