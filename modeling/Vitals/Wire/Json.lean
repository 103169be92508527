import Vitals.Json.Record
import Vitals.Request
import Vitals.Service

/-!
# The JSON forms of what is sent and stored

Every field has the name of its member. The fields of counters, requests, responses, nodes
and services may all be left out; a snapshot and its parts need every field.
-/

namespace Vitals

open Json (Codec Field Fields)

namespace Json.Field

/-- A field that has to be there. -/
def needed {α : Type} (name : String) (codec : Codec α) : Field α := { name, codec }

/-- A field that is `value` where it is left out. -/
def orElse {α : Type} (name : String) (codec : Codec α) (value : α) : Field α :=
  { name, codec, absent := some value }

end Json.Field

/-- The JSON form of a reference to a node. -/
def NodeRef.codec : Codec NodeRef :=
  .record "struct NodeRef"
    (.cons (.needed "id" .string) <| .cons (.needed "address" .string) .nil)
    (fun (id, address, ()) => { id, address })
    fun r => (r.id, r.address, ())

/-- The JSON form of a reference to a service. -/
def ServiceRef.codec : Codec ServiceRef :=
  .record "struct ServiceRef"
    (.cons (.needed "name" .string) <| .cons (.needed "version" .string) <|
      .cons (.needed "node" NodeRef.codec) .nil)
    (fun (name, version, node, ()) => { name, version, node })
    fun r => (r.name, r.version, r.node, ())

/-- The JSON form of a snapshot. -/
def Snapshot.codec : Codec Snapshot :=
  .record "struct Snapshot"
    (.cons (.needed "service" ServiceRef.codec) <| .cons (.needed "started" .int64) <|
      .cons (.needed "uptime" .uint64) <| .cons (.needed "memory" .uint64) <|
      .cons (.needed "threads" .uint64) <| .cons (.needed "gc" .uint64) <|
      .cons (.needed "requests" .uint64) <| .cons (.needed "errors" .uint64) <|
      .cons (.needed "timestamp" .uint64) .nil)
    (fun (service, started, uptime, memory, threads, gc, requests, errors, timestamp, ()) =>
      { service, started, uptime, memory, threads, gc, requests, errors, timestamp })
    fun s => (s.service, s.started, s.uptime, s.memory, s.threads, s.gc, s.requests, s.errors,
      s.timestamp, ())

/-- The JSON form of counters. -/
def Counters.codec : Codec Counters :=
  .record "struct StatsResponse"
    (.cons (.orElse "started" .uint64 0) <| .cons (.orElse "uptime" .uint64 0) <|
      .cons (.orElse "memory" .uint64 0) <| .cons (.orElse "threads" .uint64 0) <|
      .cons (.orElse "gc" .uint64 0) <| .cons (.orElse "requests" .uint64 0) <|
      .cons (.orElse "errors" .uint64 0) .nil)
    (fun (started, uptime, memory, threads, gc, requests, errors, ()) =>
      { started, uptime, memory, threads, gc, requests, errors })
    fun c => (c.started, c.uptime, c.memory, c.threads, c.gc, c.requests, c.errors, ())

/-- The JSON form of the request to a node. -/
def StatsRequest.codec : Codec StatsRequest :=
  .record "struct StatsRequest" .nil (fun () => {}) fun _ => ()

/-- The JSON form of a filter. -/
def ServiceFilter.codec : Codec ServiceFilter :=
  .record "struct ServiceFilter"
    (.cons (.orElse "name" .string "") <| .cons (.orElse "version" .string "") .nil)
    (fun (name, version, ()) => { name, version })
    fun f => (f.name, f.version, ())

/-- The JSON form of a request to read; no filter is no member. -/
def ReadRequest.codec : Codec ReadRequest :=
  .record "struct ReadRequest"
    (.cons
      { Field.orElse "service" (.option ServiceFilter.codec) none with hidden := Option.isNone } <|
      .cons (.orElse "past" .bool false) .nil)
    (fun (service, past, ()) => { service, past })
    fun r => (r.service, r.past, ())

/-- The JSON form of a response. -/
def ReadResponse.codec : Codec ReadResponse :=
  .record "struct ReadResponse" (.cons (.orElse "stats" (.list Snapshot.codec) []) .nil)
    (fun (stats, ()) => { stats }) fun r => (r.stats, ())

/-- The JSON form of a request to write. -/
def WriteRequest.codec : Codec WriteRequest :=
  .record "struct WriteRequest" (.cons (.orElse "stats" (.list Snapshot.codec) []) .nil)
    (fun (stats, ()) => { stats }) fun r => (r.stats, ())

/-- The JSON form of a request to stream. -/
def StreamRequest.codec : Codec StreamRequest :=
  .record "struct StreamRequest"
    (.cons (.orElse "service" (.option ServiceFilter.codec) none) .nil)
    (fun (service, ()) => { service }) fun r => (r.service, ())

/-- The JSON form of metadata. -/
def Metadata.codec : Codec Metadata := .map .string

/-- The JSON form of a node. -/
def Node.codec : Codec Node :=
  .record "struct Node"
    (.cons (.orElse "id" .string "") <| .cons (.orElse "address" .string "") <|
      .cons (.orElse "metadata" Metadata.codec .empty) .nil)
    (fun (id, address, metadata, ()) => { id, address, metadata })
    fun n => (n.id, n.address, n.metadata, ())

/-- The JSON form of a service. -/
def Service.codec : Codec Service :=
  .record "struct Service"
    (.cons (.orElse "name" .string "") <| .cons (.orElse "version" .string "") <|
      .cons (.orElse "metadata" Metadata.codec .empty) <|
      .cons (.orElse "nodes" (.list Node.codec) []) .nil)
    (fun (name, version, metadata, nodes, ()) => { name, version, metadata, nodes })
    fun s => (s.name, s.version, s.metadata, s.nodes, ())

end Vitals
