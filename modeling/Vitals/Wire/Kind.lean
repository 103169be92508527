import Vitals.Wire.Cbor
import Vitals.Wire.Json

/-!
# The kinds of things that are sent and stored

`Kind` lists every type with a JSON form and says which of them have a binary form too.
-/

namespace Vitals.Wire

/-- A kind of thing that is sent or stored. -/
inductive Kind where
  | statsRequest | counters | serviceFilter | readRequest | readResponse | writeRequest
  | streamRequest | snapshot | nodeRef | serviceRef | node | service | services
deriving Repr, DecidableEq, Inhabited

namespace Kind

/-- The type of the things of a kind. -/
abbrev Carrier : Kind → Type
  | statsRequest => StatsRequest
  | counters => Counters
  | serviceFilter => ServiceFilter
  | readRequest => ReadRequest
  | readResponse => ReadResponse
  | writeRequest => WriteRequest
  | streamRequest => StreamRequest
  | snapshot => Snapshot
  | nodeRef => NodeRef
  | serviceRef => ServiceRef
  | node => Node
  | service => Service
  | services => List Service

/-- The JSON form of the things of a kind. -/
def codec : (kind : Kind) → Json.Codec kind.Carrier
  | statsRequest => StatsRequest.codec
  | counters => Counters.codec
  | serviceFilter => ServiceFilter.codec
  | readRequest => ReadRequest.codec
  | readResponse => ReadResponse.codec
  | writeRequest => WriteRequest.codec
  | streamRequest => StreamRequest.codec
  | snapshot => Snapshot.codec
  | nodeRef => NodeRef.codec
  | serviceRef => ServiceRef.codec
  | node => Node.codec
  | service => Service.codec
  | services => .list Service.codec

/-- The binary form of the things of a kind, if there is one. -/
def form? : (kind : Kind) → Option (Cbor.Form kind.Carrier)
  | counters => some Counters.form
  | serviceFilter => some ServiceFilter.form
  | readRequest => some ReadRequest.form
  | readResponse => some ReadResponse.form
  | snapshot => some Snapshot.form
  | nodeRef => some NodeRef.form
  | serviceRef => some ServiceRef.form
  | _ => none

end Kind

end Vitals.Wire
