import Vitals.Collector.Node
import Vitals.Published
import Vitals.Warning

/-!
# One scrape of all nodes

A tick calls every eligible node of the directory at once and ends with the last of the calls.
Its batch holds a snapshot for each call that gave counters, in the order in which the calls
ended; calls that end together stand in the order of the directory.
-/

namespace Vitals

/-- The method by which a node is asked for its counters. -/
def statsMethod : String := "Debug.Stats"

/-- A node that a tick calls, with its service. -/
structure Target where
  service : Service
  node : Node
deriving Inhabited

namespace Target

/-- What is asked of the node. -/
def call (target : Target) : Call :=
  ⟨target.service.name, statsMethod, StatsRequest.codec.toJson {}⟩

/-- How snapshots name the node. -/
def reference (target : Target) : ServiceRef where
  name := target.service.name
  version := target.service.version
  node := ⟨target.node.id, target.node.address⟩

end Target

/-- The nodes of a directory that speak a protocol, in its order. -/
def eligibleTargets (protocol : String) (services : List Service) : List Target :=
  services.flatMap fun service =>
    (service.nodes.filter fun node => node.protocol? == some protocol).map (⟨service, ·⟩)

/-- A call that is under way. -/
structure PendingCall where
  target : Target
  /-- When it will end. -/
  ends : Nat
  /-- How it will end. -/
  ending : Ending
deriving Inhabited

/-- What a tick has done. -/
structure TickReport where
  /-- The nodes called. -/
  eligible : Nat
  /-- The snapshots taken. -/
  collected : Nat
deriving Repr, DecidableEq, Inhabited

/-- The nodes that gave no snapshot. -/
def TickReport.failed (report : TickReport) : Nat := report.eligible - report.collected

/-- A tick that is under way. -/
structure Tick where
  /-- Ticks are numbered in the order of their starts. -/
  number : Nat
  /-- The pair of loops that started the tick; none for a tick asked for by hand. -/
  session : Option Nat
  eligible : Nat
  /-- The calls that have not ended, in the order of the directory. -/
  pending : List PendingCall
  /-- The snapshots so far. -/
  batch : Batch
deriving Inhabited

namespace Tick

/-- Whether all calls have ended. -/
def isOver (tick : Tick) : Bool := tick.pending.isEmpty

/-- When the last call ends, at the earliest `now`. -/
def endsAt (now : Nat) (tick : Tick) : Nat := tick.pending.foldl (fun t call => max t call.ends) now

/-- What the tick has done. -/
def report (tick : Tick) : TickReport := ⟨tick.eligible, tick.batch.length⟩

/-- The calls that have ended by `now`. -/
def settled (now : Nat) (tick : Tick) : List PendingCall :=
  tick.pending.filter (·.ends ≤ now)

/-- The snapshot of a call that ended at `timestamp`, if it gave one. -/
def snapshot? (timestamp : UInt64) (call : PendingCall) : Option Snapshot :=
  match call.ending with
  | .counters counters => some (counters.toSnapshot call.target.reference timestamp)
  | _ => none

/-- The warning of a call that ended. -/
def warning? (call : PendingCall) : Option Warning :=
  match call.ending with
  | .fault fault => some (.scrape call.target.service.name call.target.node.address fault)
  | _ => none

/-- The warnings of the calls that have ended by `now`; work that broke off is told last. -/
def warnings (now : Nat) (tick : Tick) : List Warning :=
  let settled := tick.settled now
  settled.filterMap warning? ++
    (settled.filter fun call => call.ending == .crash).map fun _ => .aborted

/-- Takes in the calls that have ended by `now`. -/
def settle (now : Nat) (timestamp : UInt64) (tick : Tick) : Tick :=
  { tick with
    pending := tick.pending.filter (now < ·.ends)
    batch := tick.batch ++ (tick.settled now).filterMap (snapshot? timestamp) }

end Tick

end Vitals
