import Vitals.Proofs.Cbor.Form
import Vitals.Wire.Kind

/-!
# What is sent survives its binary form

The binary forms of the kinds that have one are faithful (`Wire.Kind.faithful_form`). What is
written for a thing is read back as it was, whatever follows it, and a message that is cut off
anywhere is never taken for a shorter one : it is said to end too early (`Wire.Kind.uncut`). The
lengths of texts and lists are numbers below `2 ^ 64`, as is the length of everything that can
be written.
-/

namespace Vitals

open Cbor.Form (faithful_string faithful_bool faithful_uint64 faithful_int64 faithful_list
  faithful_option faithful_record)

/-! ## Each kind -/

theorem NodeRef.faithful_form : NodeRef.form.Faithful :=
  faithful_record (by decide) ⟨faithful_string, faithful_string, trivial⟩ fun _ => rfl

theorem ServiceRef.faithful_form : ServiceRef.form.Faithful :=
  faithful_record (by decide)
    ⟨faithful_string, faithful_string, NodeRef.faithful_form, trivial⟩ fun _ => rfl

theorem Snapshot.faithful_form : Snapshot.form.Faithful := by
  have hcounter := faithful_uint64
  refine faithful_record (by decide) ?_ fun _ => rfl
  exact ⟨ServiceRef.faithful_form, faithful_int64, hcounter, hcounter, hcounter, hcounter,
    hcounter, hcounter, hcounter, trivial⟩

theorem Counters.faithful_form : Counters.form.Faithful := by
  have hcounter := faithful_uint64
  refine faithful_record (by decide) ?_ fun _ => rfl
  exact ⟨hcounter, hcounter, hcounter, hcounter, hcounter, hcounter, hcounter, trivial⟩

theorem ServiceFilter.faithful_form : ServiceFilter.form.Faithful :=
  faithful_record (by decide) ⟨faithful_string, faithful_string, trivial⟩ fun _ => rfl

/-- A filter begins like a list. -/
theorem ServiceFilter.faithful_option_form : (Cbor.Form.option ServiceFilter.form).Faithful := by
  refine faithful_option ServiceFilter.faithful_form fun filter hsign => ?_
  have hlist : (ServiceFilter.form.encode filter).head? = some 0x82 := rfl
  rw [hlist] at hsign
  exact absurd hsign (by decide)

theorem ReadRequest.faithful_form : ReadRequest.form.Faithful :=
  faithful_record (by decide) ⟨ServiceFilter.faithful_option_form, faithful_bool, trivial⟩
    fun _ => rfl

theorem ReadResponse.faithful_form : ReadResponse.form.Faithful :=
  faithful_record (by decide) ⟨faithful_list Snapshot.faithful_form, trivial⟩ fun _ => rfl

/-! ## All kinds -/

namespace Wire.Kind

theorem faithful_form {kind : Kind} {form : Cbor.Form kind.Carrier} (h : kind.form? = some form) :
    form.Faithful := by
  cases kind <;> cases h
  case counters => exact Counters.faithful_form
  case serviceFilter => exact ServiceFilter.faithful_form
  case readRequest => exact ReadRequest.faithful_form
  case readResponse => exact ReadResponse.faithful_form
  case snapshot => exact Snapshot.faithful_form
  case nodeRef => exact NodeRef.faithful_form
  case serviceRef => exact ServiceRef.faithful_form

/-- Counters, filters, requests to read, responses, snapshots and references to nodes and
services have a binary form. What is written for such a thing is read back as the thing and
leaves what follows it, and where it breaks off, after however many bytes, the end of the input
is what is wrong with it. The lengths in the bytes are numbers of 64 bits, so a thing has to be
written in fewer than `2 ^ 64` of them, as it is if a memory holds it. -/
theorem uncut (kind : Kind) (hkind : kind ∈ [.counters, .serviceFilter, .readRequest,
      .readResponse, .snapshot, .nodeRef, .serviceRef]) :
    ∃ form, kind.form? = some form ∧
      ∀ x : kind.Carrier, (form.encode x).length < UInt64.size →
        (∀ rest, form.decode (form.encode x ++ rest) = .ok (x, rest)) ∧
        ∀ bytes, bytes <+: form.encode x → bytes ≠ form.encode x →
          form.decode bytes = .error .endOfInput := by
  have hform : ∃ form, kind.form? = some form := by
    refine Option.isSome_iff_exists.1 ?_
    revert kind
    decide
  obtain ⟨form, hform⟩ := hform
  refine ⟨form, hform, fun x hlength => ?_⟩
  have htakes := (faithful_form hform).takes x hlength
  exact ⟨htakes.whole, fun bytes hpre hne => htakes.part ⟨hpre, hne⟩⟩

/-- A response with the earliest start that there is and a node whose name is not ASCII, cut off
inside a counter. -/
theorem uncut_response :
    let service : ServiceRef := ⟨"api", "2.0.1", ⟨"nœud-🚀", "10.0.0.1:8080"⟩⟩
    let stats : ReadResponse :=
      { stats := [{ service, started := Int64.minValue, uptime := 4294967296 }] }
    ∃ form : Cbor.Form ReadResponse, Kind.form? .readResponse = some form ∧
      form.decode (form.encode stats ++ [0xff]) = .ok (stats, [0xff]) ∧
      form.decode ((form.encode stats).take 53) = .error .endOfInput := by
  intro service stats
  obtain ⟨form, hform, hread⟩ := uncut .readResponse (by decide)
  obtain rfl : ReadResponse.form = form := Option.some.inj hform
  have hlength : (ReadResponse.form.encode stats).length = 64 := by decide +kernel
  obtain ⟨hwhole, hpart⟩ := hread stats (by rw [hlength]; decide)
  refine ⟨ReadResponse.form, rfl, hwhole [0xff], hpart _ (List.take_prefix 53 _) fun htake => ?_⟩
  have hshort := congrArg List.length htake
  rw [List.length_take, hlength] at hshort
  exact absurd hshort (by decide)

end Wire.Kind

end Vitals
