import Mathlib
import Vitals.Proofs.Json.Agreement
import Vitals.Wire.Kind

/-!
# What is sent and stored is read the same either way

The answer of a node is read as a document first, of which the counters are then taken, while a
server reads the body of a request at once. For every kind of thing that is sent or stored both
ways give the same (`Wire.Kind.ofJson_of_parse`), in whatever order the members stand, whichever
others stand among them, and whether a record is written as an object or as a list.
-/

namespace Vitals

open Json.Codec (agrees_string agrees_bool agrees_uint64 agrees_int64 agrees_list agrees_map
  agrees_option agrees_record)

/-! ## Nodes and services -/

theorem Metadata.agrees_codec : Metadata.codec.Agrees := agrees_map agrees_string

theorem Node.agrees_codec : Node.codec.Agrees :=
  agrees_record _ ⟨agrees_string, agrees_string, Metadata.agrees_codec, trivial⟩ (by decide)

theorem Service.agrees_codec : Service.codec.Agrees :=
  agrees_record _ ⟨agrees_string, agrees_string, Metadata.agrees_codec,
    agrees_list Node.agrees_codec, trivial⟩ (by decide)

/-! ## Counters and snapshots -/

theorem NodeRef.agrees_codec : NodeRef.codec.Agrees :=
  agrees_record _ ⟨agrees_string, agrees_string, trivial⟩ (by decide)

theorem ServiceRef.agrees_codec : ServiceRef.codec.Agrees :=
  agrees_record _ ⟨agrees_string, agrees_string, NodeRef.agrees_codec, trivial⟩ (by decide)

theorem Snapshot.agrees_codec : Snapshot.codec.Agrees :=
  agrees_record _ ⟨ServiceRef.agrees_codec, agrees_int64, agrees_uint64, agrees_uint64,
    agrees_uint64, agrees_uint64, agrees_uint64, agrees_uint64, agrees_uint64, trivial⟩
    (by decide)

theorem Counters.agrees_codec : Counters.codec.Agrees :=
  agrees_record _ ⟨agrees_uint64, agrees_uint64, agrees_uint64, agrees_uint64, agrees_uint64,
    agrees_uint64, agrees_uint64, trivial⟩ (by decide)

/-! ## Requests and responses -/

theorem StatsRequest.agrees_codec : StatsRequest.codec.Agrees :=
  agrees_record _ trivial (by decide)

theorem ServiceFilter.agrees_codec : ServiceFilter.codec.Agrees :=
  agrees_record _ ⟨agrees_string, agrees_string, trivial⟩ (by decide)

/-- The word for none is no filter. -/
theorem ServiceFilter.agrees_option : (Json.Codec.option ServiceFilter.codec).Agrees :=
  Json.Codec.agrees_option ServiceFilter.agrees_codec fun _ h => by cases h

theorem ReadRequest.agrees_codec : ReadRequest.codec.Agrees :=
  agrees_record _ ⟨ServiceFilter.agrees_option, agrees_bool, trivial⟩ (by decide)

theorem StreamRequest.agrees_codec : StreamRequest.codec.Agrees :=
  agrees_record _ ⟨ServiceFilter.agrees_option, trivial⟩ (by decide)

theorem ReadResponse.agrees_codec : ReadResponse.codec.Agrees :=
  agrees_record _ ⟨agrees_list Snapshot.agrees_codec, trivial⟩ (by decide)

theorem WriteRequest.agrees_codec : WriteRequest.codec.Agrees :=
  agrees_record _ ⟨agrees_list Snapshot.agrees_codec, trivial⟩ (by decide)

/-! ## All kinds -/

namespace Wire.Kind

theorem agrees_codec (kind : Kind) : kind.codec.Agrees := by
  cases kind with
  | statsRequest => exact StatsRequest.agrees_codec
  | counters => exact Counters.agrees_codec
  | serviceFilter => exact ServiceFilter.agrees_codec
  | readRequest => exact ReadRequest.agrees_codec
  | readResponse => exact ReadResponse.agrees_codec
  | writeRequest => exact WriteRequest.agrees_codec
  | streamRequest => exact StreamRequest.agrees_codec
  | snapshot => exact Snapshot.agrees_codec
  | nodeRef => exact NodeRef.agrees_codec
  | serviceRef => exact ServiceRef.agrees_codec
  | node => exact Node.agrees_codec
  | service => exact Service.agrees_codec
  | services => exact agrees_list Service.agrees_codec

/-- What is read of a text at once is what the document of the text is, so that reading the document
first refuses nothing that is read at once and never reads it differently. -/
theorem ofJson_of_parse (kind : Kind) {s : List UInt8} {document : Json} {x : kind.Carrier}
    (hdocument : Json.parse s = .ok document) (hx : kind.codec.parse s = .ok x) :
    kind.codec.ofJson document = .ok x :=
  kind.agrees_codec.ofJson_eq hdocument hx

/-- A service with a member that is no field. Of its nodes one is the list of its fields, one has a
member that is no field before the one that is, and one says a key of its metadata twice. -/
theorem ofJson_of_parse_nodes :
    let s := Utf8.encode <| Json.compact <| .object [
      ("x", .object [("y", .list [.null])]),
      ("nodes", .list [
        .list [.text "n1"],
        .object [("x", .integer 7), ("id", .text "n2")],
        .object [("metadata", .object [("b", .text "1"), ("a", .text "2"), ("b", .text "3")])]])]
    let document := Json.object [
      ("nodes", .list [
        .list [.text "n1"],
        .object [("id", .text "n2"), ("x", .integer 7)],
        .object [("metadata", .object [("a", .text "2"), ("b", .text "3")])]]),
      ("x", .object [("y", .list [.null])])]
    let service : Service := { nodes := [
      { id := "n1" }, { id := "n2" }, { metadata := .ofList [("a", "2"), ("b", "3")] }] }
    Json.parse s = .ok document ∧ Service.codec.parse s = .ok service ∧
      Service.codec.ofJson document = .ok service := by
  intro s document service
  have hdocument : Json.parse s = .ok document := by unfold s document; cbv
  have hservice : Service.codec.parse s = .ok service := by unfold s service; cbv
  exact ⟨hdocument, hservice, ofJson_of_parse .service hdocument hservice⟩

end Wire.Kind

end Vitals
