import Vitals.Proofs.Collector.Node
import Vitals.Proofs.Json.Member

/-!
# Which answers are counters

The answer of a node is counters if it is an object in which each counter that is there is a number
that a counter can hold, or a list of at most seven such numbers (`Json.IsReport`) ; whatever else
an object has makes no difference. The counters are then the numbers that the answer says, those of
a list in the order of the fields, and zero where it says nothing (`Counters.SaidBy`), and a
snapshot carries them on as they are, but for a start later than a signed number can say
(`Counters.read_answer`).
-/

namespace Vitals

open Json (Codec Field Fields named)

/-! ## Counts -/

namespace Json

/-- A number that a counter can hold. -/
def IsCount (document : Json) : Prop :=
  ∃ n : Int, document = .integer n ∧ 0 ≤ n ∧ n ≤ 18446744073709551615

/-- Some documents say a count : the number alone says it, and nothing says zero. -/
def SayCount (documents : List Json) (count : UInt64) : Prop :=
  documents = [] ∧ count = 0 ∨ documents = [.integer count.toNat]

theorem isCount_iff {document : Json} :
    document.IsCount ↔ ∃ count : UInt64, document = .integer count.toNat := by
  constructor
  · rintro ⟨n, rfl, hlow, hhigh⟩
    refine ⟨UInt64.ofNat n.toNat, congrArg integer ?_⟩
    rw [UInt64.toNat_ofNat_of_lt' (by simp only [UInt64.size]; omega), Int.toNat_of_nonneg hlow]
  · rintro ⟨count, rfl⟩
    have hhigh := count.toNat_lt
    exact ⟨count.toNat, rfl, by omega, by omega⟩

theorem uint64_ofJson_iff {document : Json} {count : UInt64} :
    Codec.uint64.ofJson document = .ok count ↔ document = .integer count.toNat := by
  constructor
  · intro h
    cases document with
    | integer n =>
      simp only [Codec.uint64, Codec.scalar] at h
      split_ifs at h with hrange
      rw [← Except.ok.inj h, UInt64.toNat_ofNatLT, Int.toNat_of_nonneg hrange.1]
    | _ => cases h
  · rintro rfl
    have hrange : (0 : Int) ≤ count.toNat ∧ (count.toNat : Int).toNat < UInt64.size :=
      ⟨by omega, count.toNat_lt_size⟩
    simp only [Codec.uint64, Codec.scalar, dif_pos hrange]
    exact congrArg Except.ok (UInt64.ofNatLT_toNat count)

/-- What a counter is that may be left out. -/
theorem gives_count_iff {name : String} {documents : List Json} {count : UInt64} :
    (Field.orElse name Codec.uint64 0).Gives documents count ↔ SayCount documents count := by
  match documents with
  | [] => simp [Field.Gives, Field.orElse, SayCount, eq_comm]
  | [document] => simp [Field.Gives, Field.orElse, SayCount, uint64_ofJson_iff]
  | _ :: _ :: _ => simp [Field.Gives, SayCount]

theorem exists_sayCount_iff {documents : List Json} :
    (∃ count, SayCount documents count) ↔
      documents = [] ∨ ∃ document, documents = [document] ∧ document.IsCount := by
  simp only [SayCount, isCount_iff, exists_or]
  constructor
  · rintro (⟨_, hnone, -⟩ | ⟨count, hone⟩)
    · exact .inl hnone
    · exact .inr ⟨_, hone, count, rfl⟩
  · rintro (hnone | ⟨_, hone, count, rfl⟩)
    · exact .inl ⟨0, hnone, rfl⟩
    · exact .inr ⟨count, hone⟩

end Json

/-! ## Reports -/

namespace Counters

/-- The names of the counters, in the order of the fields. -/
def names : List String := ["started", "uptime", "memory", "threads", "gc", "requests", "errors"]

/-- The counters under their names, in the order of the fields. -/
def entries (counters : Counters) : List (String × UInt64) :=
  names.zip [counters.started, counters.uptime, counters.memory, counters.threads, counters.gc,
    counters.requests, counters.errors]

/-- The counters are those that a document says : in an object under their names, each once at most,
and in a list at their places. -/
def SaidBy (counters : Counters) : Json → Prop
  | .object members => ∀ entry ∈ counters.entries, Json.SayCount (named entry.1 members) entry.2
  | .list items =>
    (∀ place ∈ counters.entries.zipIdx, Json.SayCount items[place.2]?.toList place.1.2) ∧
      items.length ≤ 7
  | _ => False

end Counters

/-- A document that says counters. In an object that was read no name stands twice
(`Json.isReport_entries_iff`). -/
def Json.IsReport : Json → Prop
  | .object members => ∀ name ∈ Counters.names,
    named name members = [] ∨ ∃ document, named name members = [document] ∧ document.IsCount
  | .list items => items.length ≤ 7 ∧ ∀ item ∈ items, item.IsCount
  | _ => False

theorem Json.isReport_entries_iff (m : OrderedMap String Json) :
    (Json.object m.entries).IsReport ↔
      ∀ name ∈ Counters.names, ∀ document, m.get? name = some document → document.IsCount := by
  refine forall₂_congr fun name _ => ?_
  rw [named_entries]
  cases m.get? name <;> simp

namespace Counters

theorem ofJson_iff {document : Json} {counters : Counters} :
    codec.ofJson document = .ok counters ↔ counters.SaidBy document := by
  cases document with
  | object members =>
    rw [codec, Codec.record_ofJson_object_iff (by decide) (fun _ => rfl) (fun _ => rfl)]
    simp only [Fields.Gives, Json.gives_count_iff]
    simp [SaidBy, entries, names, Field.orElse]
  | list items =>
    have hend : items.tail.tail.tail.tail.tail.tail.tail = [] ↔ items.length ≤ 7 := by
      simp only [← List.length_eq_zero_iff, List.length_tail]
      omega
    rw [codec, Codec.record_ofJson_list_iff (fun _ => rfl) (fun _ => rfl)]
    simp only [Fields.GivesItems, Json.gives_count_iff, List.head?_eq_getElem?,
      List.getElem?_tail, hend]
    simp [SaidBy, entries, names, and_assoc]
  | null | flag _ | integer _ | real _ | text _ =>
    constructor
    · intro h
      cases h
    · exact False.elim

theorem exists_saidBy_iff {document : Json} :
    (∃ counters : Counters, counters.SaidBy document) ↔ document.IsReport := by
  cases document with
  | object members =>
    simp only [Json.IsReport, ← Json.exists_sayCount_iff]
    constructor
    · rintro ⟨counters, h⟩ name hname
      have hnames : counters.entries.map Prod.fst = names := rfl
      rw [← hnames] at hname
      obtain ⟨entry, hentry, rfl⟩ := List.mem_map.1 hname
      exact ⟨entry.2, h entry hentry⟩
    · intro h
      choose! count hcount using h
      exact ⟨⟨count "started", count "uptime", count "memory", count "threads", count "gc",
        count "requests", count "errors"⟩, by simpa [SaidBy, entries, names] using hcount⟩
  | list items =>
    constructor
    · rintro ⟨counters, h, hlength⟩
      refine ⟨hlength, fun item hitem => ?_⟩
      obtain ⟨index, hindex⟩ := List.getElem?_of_mem hitem
      have hplace : index < counters.entries.length :=
        (List.getElem?_eq_some_iff.1 hindex).1.trans_le hlength
      have hsaid := h (counters.entries[index], index)
        (List.mem_zipIdx_iff_getElem?.2 (List.getElem?_eq_getElem hplace))
      rw [hindex] at hsaid
      simpa using Json.exists_sayCount_iff.1 ⟨_, hsaid⟩
    · rintro ⟨hlength, hcounts⟩
      have hsaid (index : Nat) : ∃ count, Json.SayCount items[index]?.toList count := by
        rw [Json.exists_sayCount_iff]
        cases hitem : items[index]? with
        | none => exact .inl rfl
        | some item => exact .inr ⟨item, rfl, hcounts item (List.mem_of_getElem? hitem)⟩
      choose count hcount using hsaid
      refine ⟨⟨count 0, count 1, count 2, count 3, count 4, count 5, count 6⟩, ?_, hlength⟩
      simp [entries, names, hcount]
  | null | flag _ | integer _ | real _ | text _ => simp [SaidBy, Json.IsReport]

/-! ## Snapshots -/

/-- A snapshot is told by the node, the moment and the counters. -/
theorem eq_toSnapshot_iff {counters : Counters} {service : ServiceRef} {timestamp : UInt64}
    {snapshot : Snapshot} :
    counters.toSnapshot service timestamp = snapshot ↔
      counters.ReportedIn snapshot ∧ snapshot.service = service ∧
        snapshot.timestamp = timestamp := by
  constructor
  · rintro rfl
    exact ⟨counters.reportedIn_toSnapshot service timestamp, rfl, rfl⟩
  · obtain ⟨service', started, uptime, memory, threads, gc, requests, errors, moment⟩ := snapshot
    rintro ⟨⟨hstarted, rfl, rfl, rfl, rfl, rfl, rfl⟩, rfl, rfl⟩
    have hcarried := (counters.reportedIn_toSnapshot service' moment).started
    obtain rfl := Int64.toInt_inj.1 (hcarried.trans hstarted.symm)
    rfl

/-- An answer is counters exactly if it is a report, and they are those that it says; what else is
in an object makes no difference, not even to what is said of an answer that is refused. The
snapshot of the call is there exactly then and carries the counters on, except that of a start later
than a signed number can say it says the latest that it can. -/
theorem read_answer (target : Target) (ends : Nat) (timestamp : UInt64) (answer : Json) :
    ((∃ counters, codec.ofJson answer = .ok counters) ↔ answer.IsReport) ∧
      (∀ counters, codec.ofJson answer = .ok counters ↔ counters.SaidBy answer) ∧
      (∀ members, codec.ofJson (.object members) =
        codec.ofJson (.object (members.filter (·.1 ∈ names)))) ∧
      ∀ snapshot, Tick.snapshot? timestamp ⟨target, ends, .ofAnswer answer⟩ = some snapshot ↔
        ∃ counters : Counters, counters.SaidBy answer ∧ counters.ReportedIn snapshot ∧
          snapshot.service = target.reference ∧ snapshot.timestamp = timestamp := by
  refine ⟨?read, fun counters => ofJson_iff, fun members => ?others, fun snapshot => ?snapshot⟩
  case read => simp only [ofJson_iff, exists_saidBy_iff]
  case others =>
    exact congrArg (Except.map _) (Fields.ofMembers_filter _ members).symm
  case snapshot =>
    simp only [← eq_toSnapshot_iff, ← ofJson_iff, Tick.snapshot?, Ending.ofAnswer]
    cases codec.ofJson answer <;> simp

end Counters

end Vitals
