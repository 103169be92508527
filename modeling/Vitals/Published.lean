import Vitals.Request
import Vitals.Ring

/-!
# What has been published

The snapshots of one scrape are published together as a batch. `Published` holds the batch of
the latest scrape and, in a ring, those of the latest scrapes; `Published.read` answers a
request out of the two.
-/

namespace Vitals

/-- The snapshots of one scrape. -/
abbrev Batch := List Snapshot

/-- The latest batch and the batches before it. -/
structure Published where
  current : Batch
  history : Ring Batch
  /-- How many batches have been published. -/
  count : Nat
deriving Inhabited

namespace Published

/-- Nothing has been published yet; up to `window` batches will be retained, or one. -/
def ofWindow (window : Nat) : Published := ⟨[], .ofCapacity window, 0⟩

/-- Publishes a batch. -/
def publish (published : Published) (batch : Batch) : Published where
  current := batch
  history := published.history.put batch
  count := published.count + 1

/-- The number of batches retained. -/
def retained (published : Published) : Nat := published.history.size

/-- The greatest number of batches retained. -/
def window (published : Published) : Nat := published.history.capacity

/-- Answers a request; the history is read up to `limit` batches back. -/
def read (published : Published) (limit : Nat) (request : ReadRequest) : ReadResponse :=
  let batches := if request.past then published.history.recent limit else [published.current]
  { stats := batches.flatten.filter request.accepts }

end Published

/-- The name under which the service answers. -/
def serviceId : String := "go.micro.debug.stats"

/-- Snapshots come from scrapes alone, so a request to write is refused. -/
def refuseWrite (_ : WriteRequest) : Refusal := ⟨serviceId, "write"⟩

/-- Requests to stream are refused. -/
def refuseStream (_ : StreamRequest) : Refusal := ⟨serviceId, "stream"⟩

end Vitals
