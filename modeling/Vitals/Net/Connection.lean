import Std.Async.DNS
import Std.Async.TCP
import Std.Async.Timer
import Vitals.Http.Message
import Vitals.Inquiry
import Vitals.Net.Socket

/-!
# Connections

Requests and answers on connections of the operating system: `Connection.ask` sends a request
and waits for its answer, `Connection.serve` answers the requests that arrive. What is said on
a connection is decided elsewhere.
-/

namespace Vitals.Connection

/-- Work that waits for the operating system. -/
abbrev Work := Std.Async.Async

/-- An address as the operating system takes it. -/
def place : SocketAddress → Std.Net.SocketAddress
  | .v4 ip port => .v4 ⟨.ofParts ip.a ip.b ip.c ip.d, port⟩
  | .v6 ip _ port => .v6 ⟨⟨ip.groups⟩, port⟩

/-- Receives until something whole has arrived, or can no longer arrive. -/
partial def receive {α : Type} (client : Std.Async.TCP.Socket.Client)
    (read : Bool → List UInt8 → Http.Arrival α) (arrived : ByteArray) : Work (Option α) := do
  match read false arrived.toList with
  | .whole value => return some value
  | .malformed => return none
  | .part =>
    match ← client.recv? 65536 with
    | some bytes => receive client read (arrived ++ bytes)
    | none =>
      match read true arrived.toList with
      | .whole value => return some value
      | _ => return none

/-! ## Asking -/

/-- Connects to the first of some addresses that can be reached. -/
partial def connectFirst : List Std.Net.SocketAddress → Work Std.Async.TCP.Socket.Client
  | [] => throw (.userError "no address can be reached")
  | address :: rest => do
    let client ← Std.Async.TCP.Socket.Client.mk
    try
      client.connect address
      return client
    catch _ => connectFirst rest

/-- Connects to the server of a URL. -/
def connect (url : Url) : Work Std.Async.TCP.Socket.Client := do
  let host := (url.host.getD "").toList.filter fun c => c ≠ '[' ∧ c ≠ ']'
  let port := UInt16.ofNat (url.port.getD 80)
  let found ← Std.Async.DNS.getAddrInfo (String.ofList host) ""
  connectFirst <| found.toList.eraseDups.map fun
    | .v4 ip => .v4 ⟨ip, port⟩
    | .v6 ip => .v6 ⟨ip, port⟩

/-- What becomes of a request on a connection. -/
def converse (client : Std.Async.TCP.Socket.Client) (url : Url) (request : Http.Request) :
    Work Http.Outcome := do
  try
    client.send ⟨(request.write (url.authority.getD "")).toArray⟩
    match ← receive client Http.Response.read .empty with
    | some response => return .answered response
    | none => return .closed
  catch _ => return .closed

/-- What becomes of an errand. A connection that has to be secured does not come about. -/
def exchange (errand : Errand) : Work Http.Outcome := do
  let (url, request) := errand
  if url.scheme ≠ "http" then return .unreachable
  let client? ← try some <$> connect url catch _ => pure none
  match client? with
  | some client => converse client url request
  | none => return .unreachable

/-- What becomes of an errand for which there is so much time. -/
def ask (patience : Duration) (errand : Errand) : Work Answer := do
  let began ← IO.monoMsNow
  let giveUp : Work Http.Outcome := do
    Std.Async.sleep (.ofNat patience.millisUp)
    return .silent
  let outcome ← Std.Async.Async.race (exchange errand) giveUp
  return ⟨errand, outcome, (← IO.monoMsNow) - began⟩

/-! ## Answering -/

/-- The greatest number of bytes of a request that are waited for. -/
def maxRequest : Nat := 1048576

/-- Answers the one request of a connection. -/
def reply (answer : Http.Request → IO Http.Response) (client : Std.Async.TCP.Socket.Client) :
    Work Unit := do
  let read (closed : Bool) (bytes : List UInt8) :=
    Http.Request.read (closed || maxRequest < bytes.length) bytes
  let response ← match ← receive client read .empty with
    | some request => answer request
    | none => pure { status := .badRequest }
  client.send ⟨response.write.toArray⟩
  client.shutdown

/-- Answers the requests that arrive. -/
partial def serve (server : Std.Async.TCP.Socket.Server)
    (answer : Http.Request → IO Http.Response) : Work Unit := do
  while true do
    let client ← server.accept
    Std.Async.background do
      try reply answer client
      catch _ => return

/-- A server that listens at an address. -/
def listen (address : SocketAddress) : IO Std.Async.TCP.Socket.Server := do
  let server ← Std.Async.TCP.Socket.Server.mk
  server.bind (place address)
  server.listen 128
  return server

end Vitals.Connection
