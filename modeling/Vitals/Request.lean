import Vitals.Snapshot

/-!
# Requests for snapshots

A reader asks for the latest snapshots or for the retained history, of every service or of
those that a filter lets through. The two other requests that the service knows are always
refused (`Refusal`).
-/

namespace Vitals

/-- Selects snapshots by their service; an empty text lets every name or version through. -/
structure ServiceFilter where
  name : String := ""
  version : String := ""
deriving Repr, DecidableEq, Inhabited

namespace ServiceFilter

/-- Whether a wanted text lets a value through. -/
def admits (wanted value : String) : Bool := wanted == "" || value == wanted

/-- Whether the filter lets a snapshot through. -/
def accepts (filter : ServiceFilter) (snapshot : Snapshot) : Bool :=
  admits filter.name snapshot.service.name && admits filter.version snapshot.service.version

end ServiceFilter

/-- Asks for the latest snapshots, or with `past` for the retained history. -/
structure ReadRequest where
  /-- Which services are asked about; all of them without a filter. -/
  service : Option ServiceFilter := none
  past : Bool := false
deriving Repr, DecidableEq, Inhabited

namespace ReadRequest

/-- Whether a snapshot is asked for. -/
def accepts (request : ReadRequest) (snapshot : Snapshot) : Bool :=
  request.service.all (·.accepts snapshot)

/-- The request of a reader who names a service and a version or leaves them out. A version
counts only together with a service. -/
def ofArguments (service version : Option String) (past : Bool) : ReadRequest :=
  match service.filter (· ≠ "") with
  | none => { past }
  | some name => { service := some { name, version := version.getD "" }, past }

end ReadRequest

/-- The snapshots that a read gives. -/
structure ReadResponse where
  stats : List Snapshot := []
deriving Repr, DecidableEq, Inhabited

/-- Asks for snapshots to be taken in. -/
structure WriteRequest where
  stats : List Snapshot := []
deriving Repr, DecidableEq, Inhabited

/-- Asks for snapshots as they arrive. -/
structure StreamRequest where
  service : Option ServiceFilter := none
deriving Repr, DecidableEq, Inhabited

/-- Asks a node for its counters. -/
structure StatsRequest where
deriving Repr, DecidableEq, Inhabited

/-- An operation of the contract that the service `id` refuses. -/
structure Refusal where
  id : String
  operation : String
deriving Repr, DecidableEq, Inhabited

namespace Refusal

/-- The wording of the refusal. -/
def message (refusal : Refusal) : String := s!"{refusal.id}: {refusal.operation} not implemented"

/-- The status of an answer that carries the refusal. -/
def status (_ : Refusal) : Nat := 400

end Refusal

end Vitals
