import Vitals.Cbor.Form
import Vitals.Request

/-!
# The binary forms of what is sent

Each is the list of the fields in the order of the JSON form, a lacking filter being null.
-/

namespace Vitals

open Cbor (Form Fields)

/-- The binary form of a reference to a node. -/
def NodeRef.form : Form NodeRef :=
  .record (.and .string <| .and .string .nil) (fun (id, address, ()) => { id, address })
    fun r => (r.id, r.address, ())

/-- The binary form of a reference to a service. -/
def ServiceRef.form : Form ServiceRef :=
  .record (.and .string <| .and .string <| .and NodeRef.form .nil)
    (fun (name, version, node, ()) => { name, version, node })
    fun r => (r.name, r.version, r.node, ())

/-- The binary form of a snapshot. -/
def Snapshot.form : Form Snapshot :=
  .record
    (.and ServiceRef.form <| .and .int64 <| .and .uint64 <| .and .uint64 <| .and .uint64 <|
      .and .uint64 <| .and .uint64 <| .and .uint64 <| .and .uint64 .nil)
    (fun (service, started, uptime, memory, threads, gc, requests, errors, timestamp, ()) =>
      { service, started, uptime, memory, threads, gc, requests, errors, timestamp })
    fun s => (s.service, s.started, s.uptime, s.memory, s.threads, s.gc, s.requests, s.errors,
      s.timestamp, ())

/-- The binary form of counters. -/
def Counters.form : Form Counters :=
  .record
    (.and .uint64 <| .and .uint64 <| .and .uint64 <| .and .uint64 <| .and .uint64 <|
      .and .uint64 <| .and .uint64 .nil)
    (fun (started, uptime, memory, threads, gc, requests, errors, ()) =>
      { started, uptime, memory, threads, gc, requests, errors })
    fun c => (c.started, c.uptime, c.memory, c.threads, c.gc, c.requests, c.errors, ())

/-- The binary form of a filter. -/
def ServiceFilter.form : Form ServiceFilter :=
  .record (.and .string <| .and .string .nil) (fun (name, version, ()) => { name, version })
    fun f => (f.name, f.version, ())

/-- The binary form of a request to read. -/
def ReadRequest.form : Form ReadRequest :=
  .record (.cons (.option ServiceFilter.form) (some none) <| .and .bool .nil)
    (fun (service, past, ()) => { service, past }) fun r => (r.service, r.past, ())

/-- The binary form of a response. -/
def ReadResponse.form : Form ReadResponse :=
  .record (.and (.list Snapshot.form) .nil) (fun (stats, ()) => { stats }) fun r => (r.stats, ())

end Vitals
