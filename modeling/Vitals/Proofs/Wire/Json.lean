import Vitals.Proofs.Json.Record
import Vitals.Proofs.Json.Scalar
import Vitals.Wire.Kind

/-!
# What is sent and stored survives its JSON form

The JSON forms of all kinds of things that are sent or stored are faithful
(`Wire.Kind.faithful_codec`) : what is written for a thing is read back as it was, whatever its
texts, counters, points in time and metadata are, and whether its filter is there or not
(`Wire.Kind.read_back`). A filter that is lacking is no member of a request to read
(`ReadRequest.member_service`) and a member `null` of a request to stream
(`StreamRequest.member_service`) ; a filter that is there is an object in both, also where it
lets everything through.
-/

set_option linter.unusedSectionVars false

namespace Vitals

namespace Json.Field

variable {α : Type} {codec : Codec α}

theorem faithful_needed (h : codec.Faithful) (name : String) : (Field.needed name codec).Faithful :=
  ⟨h, fun _ hidden => absurd hidden Bool.false_ne_true⟩

theorem faithful_orElse (h : codec.Faithful) (name : String) (value : α) :
    (Field.orElse name codec value).Faithful :=
  ⟨h, fun _ hidden => absurd hidden Bool.false_ne_true⟩

end Json.Field

open Json.Field (faithful_needed faithful_orElse)
open Json.Codec (faithful_string faithful_bool faithful_uint64 faithful_int64 faithful_list
  faithful_map faithful_option faithful_record)

/-! ## Nodes and services -/

theorem Metadata.faithful_codec : Metadata.codec.Faithful :=
  faithful_map faithful_string

theorem Node.faithful_codec : Node.codec.Faithful := by
  have hid := faithful_orElse faithful_string "id" ""
  have haddress := faithful_orElse faithful_string "address" ""
  have hmetadata := faithful_orElse Metadata.faithful_codec "metadata" .empty
  refine faithful_record _ ?_ fun _ => rfl
  exact ⟨hid, by decide, haddress, by decide, hmetadata, by decide, trivial⟩

theorem Service.faithful_codec : Service.codec.Faithful := by
  have hname := faithful_orElse faithful_string "name" ""
  have hversion := faithful_orElse faithful_string "version" ""
  have hmetadata := faithful_orElse Metadata.faithful_codec "metadata" .empty
  have hnodes := faithful_orElse (faithful_list Node.faithful_codec) "nodes" []
  refine faithful_record _ ?_ fun _ => rfl
  exact ⟨hname, by decide, hversion, by decide, hmetadata, by decide, hnodes, by decide, trivial⟩

/-- Lists of services are read back as they were written. -/
theorem Service.faithful_services : (Json.Codec.list Service.codec).Faithful :=
  faithful_list Service.faithful_codec

/-! ## Counters and snapshots -/

theorem NodeRef.faithful_codec : NodeRef.codec.Faithful := by
  have hid := faithful_needed faithful_string "id"
  have haddress := faithful_needed faithful_string "address"
  refine faithful_record _ ?_ fun _ => rfl
  exact ⟨hid, by decide, haddress, by decide, trivial⟩

theorem ServiceRef.faithful_codec : ServiceRef.codec.Faithful := by
  have hname := faithful_needed faithful_string "name"
  have hversion := faithful_needed faithful_string "version"
  have hnode := faithful_needed NodeRef.faithful_codec "node"
  refine faithful_record _ ?_ fun _ => rfl
  exact ⟨hname, by decide, hversion, by decide, hnode, by decide, trivial⟩

theorem Snapshot.faithful_codec : Snapshot.codec.Faithful := by
  have hservice := faithful_needed ServiceRef.faithful_codec "service"
  have hstarted := faithful_needed faithful_int64 "started"
  have hcounter := faithful_needed faithful_uint64
  refine faithful_record _ ?_ fun _ => rfl
  exact ⟨hservice, by decide, hstarted, by decide, hcounter _, by decide, hcounter _, by decide,
    hcounter _, by decide, hcounter _, by decide, hcounter _, by decide, hcounter _, by decide,
    hcounter _, by decide, trivial⟩

theorem Counters.faithful_codec : Counters.codec.Faithful := by
  have hcounter := fun name => faithful_orElse faithful_uint64 name 0
  refine faithful_record _ ?_ fun _ => rfl
  exact ⟨hcounter _, by decide, hcounter _, by decide, hcounter _, by decide, hcounter _,
    by decide, hcounter _, by decide, hcounter _, by decide, hcounter _, by decide, trivial⟩

/-! ## Requests and responses -/

theorem StatsRequest.faithful_codec : StatsRequest.codec.Faithful :=
  faithful_record _ trivial fun _ => rfl

theorem ServiceFilter.faithful_codec : ServiceFilter.codec.Faithful := by
  have hname := faithful_orElse faithful_string "name" ""
  have hversion := faithful_orElse faithful_string "version" ""
  refine faithful_record _ ?_ fun _ => rfl
  exact ⟨hname, by decide, hversion, by decide, trivial⟩

/-- No filter is taken for one that is lacking. -/
theorem ServiceFilter.faithful_option : (Json.Codec.option ServiceFilter.codec).Faithful := by
  refine Json.Codec.faithful_option ServiceFilter.faithful_codec fun filter => ?_
  rw [show ServiceFilter.codec.written filter = _ from Json.bytes_object _]
  exact fun h => absurd (Option.some.inj h) (by decide)

theorem ReadRequest.faithful_codec : ReadRequest.codec.Faithful := by
  have hservice := ServiceFilter.faithful_option
  have hpast := faithful_orElse faithful_bool "past" false
  refine faithful_record _ ⟨⟨hservice, ?_⟩, by decide, hpast, by decide, trivial⟩ fun _ => rfl
  exact fun service hlacking => congrArg some (Option.isNone_iff_eq_none.1 hlacking).symm

theorem StreamRequest.faithful_codec : StreamRequest.codec.Faithful :=
  faithful_record _ ⟨faithful_orElse ServiceFilter.faithful_option _ _, by decide, trivial⟩
    fun _ => rfl

theorem ReadResponse.faithful_codec : ReadResponse.codec.Faithful :=
  faithful_record _
    ⟨faithful_orElse (faithful_list Snapshot.faithful_codec) _ _, by decide, trivial⟩ fun _ => rfl

theorem WriteRequest.faithful_codec : WriteRequest.codec.Faithful :=
  faithful_record _
    ⟨faithful_orElse (faithful_list Snapshot.faithful_codec) _ _, by decide, trivial⟩ fun _ => rfl

/-- A filter that is lacking is no member of a request to read. -/
theorem ReadRequest.member_service (request : ReadRequest) :
    (ReadRequest.codec.toJson request).member? "service" =
      request.service.map ServiceFilter.codec.toJson := by
  obtain ⟨service, past⟩ := request
  cases service <;> rfl

/-- A request to stream always says whether it has a filter. -/
theorem StreamRequest.member_service (request : StreamRequest) :
    (StreamRequest.codec.toJson request).member? "service" =
      some ((request.service.map ServiceFilter.codec.toJson).getD .null) := by
  obtain ⟨service⟩ := request
  cases service <;> rfl

/-- A request to read is never written like a request to stream without a filter. -/
theorem ReadRequest.text_ne_stream (request : ReadRequest) :
    ReadRequest.codec.text request ≠ StreamRequest.codec.text {} := by
  obtain ⟨service, past⟩ := request
  cases service with
  | none => cases past <;> decide
  | some filter =>
    intro h
    have hchars : (ReadRequest.codec.toJson ⟨some filter, past⟩).write =
        (StreamRequest.codec.toJson {}).write := String.ofList_injective h
    -- the first character of the value of the member
    have hvalue : some '{' = some 'n' := congrArg (·[11]?) hchars
    exact absurd hvalue (by decide)

/-! ## All kinds -/

namespace Wire.Kind

theorem faithful_codec (kind : Kind) : kind.codec.Faithful := by
  cases kind with
  | statsRequest => exact StatsRequest.faithful_codec
  | counters => exact Counters.faithful_codec
  | serviceFilter => exact ServiceFilter.faithful_codec
  | readRequest => exact ReadRequest.faithful_codec
  | readResponse => exact ReadResponse.faithful_codec
  | writeRequest => exact WriteRequest.faithful_codec
  | streamRequest => exact StreamRequest.faithful_codec
  | snapshot => exact Snapshot.faithful_codec
  | nodeRef => exact NodeRef.faithful_codec
  | serviceRef => exact ServiceRef.faithful_codec
  | node => exact Node.faithful_codec
  | service => exact Service.faithful_codec
  | services => exact Service.faithful_services

/-- The text of a thing of any kind is read back as the thing. A request to read without a
filter, one with a filter, which may be the one that lets everything through, and a request to
stream without a filter stay apart : the first has no member for the filter, the second an
object and the third `null`, and all three are written differently. -/
theorem read_back :
    (∀ (kind : Kind) (x : kind.Carrier),
      kind.codec.parse (Utf8.encode (kind.codec.text x)) = .ok x) ∧
    (∀ request : ReadRequest, (ReadRequest.codec.toJson request).member? "service" =
      request.service.map ServiceFilter.codec.toJson) ∧
    (∀ request : StreamRequest, (StreamRequest.codec.toJson request).member? "service" =
      some ((request.service.map ServiceFilter.codec.toJson).getD .null)) ∧
    (∀ filter : ServiceFilter, ServiceFilter.codec.toJson filter =
      .object [("name", .text filter.name), ("version", .text filter.version)]) ∧
    (∀ (filter : ServiceFilter) (past past' : Bool), ReadRequest.codec.text { past } ≠
      ReadRequest.codec.text { service := some filter, past := past' }) ∧
    (∀ request : ReadRequest,
      ReadRequest.codec.text request ≠ StreamRequest.codec.text {}) := by
  refine ⟨fun kind x => kind.faithful_codec.parse_text x, ReadRequest.member_service,
    StreamRequest.member_service, fun _ => rfl, fun filter past past' htext => ?_,
    ReadRequest.text_ne_stream⟩
  have hsame := ReadRequest.faithful_codec.injective_text htext
  exact Bool.false_ne_true (congrArg (·.service.isSome) hsame)

end Wire.Kind

end Vitals
