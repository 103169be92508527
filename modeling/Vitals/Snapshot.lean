/-!
# Snapshots

What a node reports about itself (`Counters`), and a report together with the node it came
from and the moment it arrived (`Snapshot`).
-/

namespace Vitals

/-- A node as its snapshots name it. -/
structure NodeRef where
  id : String := ""
  /-- The address at which the node was asked. -/
  address : String := ""
deriving Repr, DecidableEq, Inhabited

/-- A node and the service version it belongs to. -/
structure ServiceRef where
  name : String := ""
  version : String := ""
  node : NodeRef := {}
deriving Repr, DecidableEq, Inhabited

/-- The counters that a node reports. -/
structure Counters where
  /-- When the node started, in seconds. -/
  started : UInt64 := 0
  /-- For how many seconds it has been running. -/
  uptime : UInt64 := 0
  /-- The bytes of memory in use. -/
  memory : UInt64 := 0
  threads : UInt64 := 0
  /-- The garbage collections so far. -/
  gc : UInt64 := 0
  requests : UInt64 := 0
  /-- The requests that failed. -/
  errors : UInt64 := 0
deriving Repr, DecidableEq, Inhabited

/-- The counters of one node at one moment. -/
structure Snapshot where
  service : ServiceRef := {}
  /-- When the node started, in seconds. -/
  started : Int64 := 0
  /-- For how many seconds it has been running. -/
  uptime : UInt64 := 0
  /-- The bytes of memory in use. -/
  memory : UInt64 := 0
  threads : UInt64 := 0
  /-- The garbage collections so far. -/
  gc : UInt64 := 0
  requests : UInt64 := 0
  /-- The requests that failed. -/
  errors : UInt64 := 0
  /-- When the report arrived, in seconds. -/
  timestamp : UInt64 := 0
deriving Repr, DecidableEq, Inhabited

/-- The snapshot of a report that arrived at `timestamp`. A start later than a signed number
can say counts as the latest it can. -/
def Counters.toSnapshot (counters : Counters) (service : ServiceRef) (timestamp : UInt64) :
    Snapshot where
  service := service
  started := Int64.ofNat (min counters.started.toNat 9223372036854775807)
  uptime := counters.uptime
  memory := counters.memory
  threads := counters.threads
  gc := counters.gc
  requests := counters.requests
  errors := counters.errors
  timestamp := timestamp

namespace Snapshot

/-- One thing to be said about a snapshot. -/
inductive Setting where
  | service (name version : String)
  | node (id address : String)
  | started (value : Int64)
  | uptime (value : UInt64)
  | memory (value : UInt64)
  | threads (value : UInt64)
  | gc (value : UInt64)
  | requests (value : UInt64)
  | errors (value : UInt64)
  | timestamp (value : UInt64)
deriving Repr, DecidableEq, Inhabited

/-- A snapshot with the setting taken into account. -/
def set (snapshot : Snapshot) : Setting → Snapshot
  | .service name version =>
    { snapshot with service := { snapshot.service with name := name, version := version } }
  | .node id address =>
    { snapshot with service := { snapshot.service with node := ⟨id, address⟩ } }
  | .started value => { snapshot with started := value }
  | .uptime value => { snapshot with uptime := value }
  | .memory value => { snapshot with memory := value }
  | .threads value => { snapshot with threads := value }
  | .gc value => { snapshot with gc := value }
  | .requests value => { snapshot with requests := value }
  | .errors value => { snapshot with errors := value }
  | .timestamp value => { snapshot with timestamp := value }

/-- Whether the settings say when the snapshot was taken. -/
def isDated (settings : List Setting) : Bool :=
  settings.any fun
    | .timestamp _ => true
    | _ => false

/-- The snapshot of which the settings are said one after another; one that is not dated is
taken `now`. -/
def ofSettings (now : UInt64) (settings : List Setting) : Snapshot :=
  settings.foldl set { timestamp := now }

end Snapshot

end Vitals
