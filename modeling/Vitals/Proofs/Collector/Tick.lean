import Mathlib.Data.List.Sort
import Vitals.Collector.Tick

/-!
# The life of a tick

The calls of a tick end in an order of their own (`PendingCall.inOrder`) : first what ends
first, and together what ends together, in the order of the directory. What the batch will hold
in the end (`Tick.outcome`) and what will be warned of (`Tick.complaints`) is fixed as soon as
the calls are made : taking in the calls that end at a moment moves their snapshots into the
batch and their warnings out (`Tick.outcome_settle`, `Tick.warnings_append_complaints`), and
leaves the end of the last call where it was (`Tick.endsAt_settle`).
-/

set_option linter.unusedSectionVars false

namespace Vitals

/-- The calendar in whole seconds, so many milliseconds after the epoch of a run. -/
def stamp (epoch time : Nat) : UInt64 := UInt64.ofNat ((epoch + time) / 1000)

/-! ## The order of endings -/

namespace PendingCall

/-- The calls in the order in which they end; those that end together keep their order. -/
def inOrder (calls : List PendingCall) : List PendingCall :=
  calls.insertionSort fun a b => a.ends ≤ b.ends

theorem orderedInsert_append {call : PendingCall} {before : List PendingCall}
    (h : ∀ other ∈ before, other.ends < call.ends) (after : List PendingCall) :
    (before ++ after).orderedInsert (fun a b => a.ends ≤ b.ends) call =
      before ++ after.orderedInsert (fun a b => a.ends ≤ b.ends) call := by
  induction before with
  | nil => rfl
  | cons other before ih =>
    have hlate : ¬call.ends ≤ other.ends := Nat.not_le.2 (h other List.mem_cons_self)
    rw [List.cons_append, List.orderedInsert_cons, if_neg hlate,
      ih fun b hb => h b (List.mem_cons_of_mem other hb), List.cons_append]

/-- If nothing ends before `now`, then what ends `now` comes first, as it stands. -/
theorem inOrder_split {now : Nat} {calls : List PendingCall}
    (h : ∀ call ∈ calls, now ≤ call.ends) :
    inOrder calls =
      calls.filter (·.ends ≤ now) ++ inOrder (calls.filter (now < ·.ends)) := by
  induction calls with
  | nil => rfl
  | cons call calls ih =>
    have htail : ∀ other ∈ calls, now ≤ other.ends :=
      fun other hother => h other (List.mem_cons_of_mem call hother)
    by_cases hcall : call.ends ≤ now
    · have hfirst : ∀ other ∈ calls, call.ends ≤ other.ends :=
        fun other hother => Nat.le_trans hcall (htail other hother)
      have hsort : inOrder (call :: calls) = call :: inOrder calls :=
        List.insertionSort_cons_of_forall_rel _ hfirst
      rw [hsort, ih htail, List.filter_cons_of_pos (by simpa using hcall),
        List.filter_cons_of_neg (by simpa using hcall), List.cons_append]
    · have hlate : ∀ other ∈ calls.filter (·.ends ≤ now), other.ends < call.ends := by
        intro other hother
        have hother := of_decide_eq_true (List.mem_filter.1 hother).2
        omega
      have hsort : inOrder (call :: calls) =
          (inOrder calls).orderedInsert (fun a b => a.ends ≤ b.ends) call := rfl
      rw [hsort, ih htail, orderedInsert_append hlate,
        List.filter_cons_of_neg (by simpa using hcall),
        List.filter_cons_of_pos (by simpa using hcall)]
      rfl

/-- The snapshot that a call gives when it ends. -/
def snapshot? (epoch : Nat) (call : PendingCall) : Option Snapshot :=
  Tick.snapshot? (stamp epoch call.ends) call

/-- What is told of a call that gives no snapshot. -/
def complaint? (call : PendingCall) : Option Warning :=
  match call.ending with
  | .counters _ => none
  | .fault fault => some (.scrape call.target.service.name call.target.node.address fault)
  | .crash => some .aborted

end PendingCall

namespace Tick

/-! ## What a tick comes to -/

/-- What the batch will hold when all calls have ended. -/
def outcome (epoch : Nat) (tick : Tick) : Batch :=
  tick.batch ++ (PendingCall.inOrder tick.pending).filterMap (PendingCall.snapshot? epoch)

/-- What will be warned of until all calls have ended. -/
def complaints (tick : Tick) : List Warning := tick.pending.filterMap PendingCall.complaint?

variable {now : Nat} {tick : Tick}

/-- A tick that is over has gathered all it will. -/
theorem outcome_of_isOver (h : tick.isOver) (epoch : Nat) : tick.outcome epoch = tick.batch := by
  have hpending : tick.pending = [] := List.isEmpty_iff.1 h
  unfold outcome
  rw [hpending]
  exact List.append_nil _

theorem complaints_of_isOver (h : tick.isOver) : tick.complaints = [] := by
  have hpending : tick.pending = [] := List.isEmpty_iff.1 h
  unfold complaints
  rw [hpending]
  rfl

/-- Taking in the calls of the present moment does not change what the batch will hold. -/
theorem outcome_settle (h : ∀ call ∈ tick.pending, now ≤ call.ends) (epoch : Nat) :
    (tick.settle now (stamp epoch now)).outcome epoch = tick.outcome epoch := by
  have hstamp : (tick.settled now).filterMap (snapshot? (stamp epoch now)) =
      (tick.settled now).filterMap (PendingCall.snapshot? epoch) := by
    refine List.filterMap_congr fun call hcall => ?_
    obtain ⟨hmem, hends⟩ := List.mem_filter.1 hcall
    rw [PendingCall.snapshot?, Nat.le_antisymm (of_decide_eq_true hends) (h call hmem)]
  rw [outcome, outcome, settle, hstamp, PendingCall.inOrder_split h, List.filterMap_append,
    List.append_assoc]
  rfl

/-- What is told of calls that end is what there is to complain of, in another order. -/
theorem warnings_perm_filterMap (calls : List PendingCall) :
    (calls.filterMap warning? ++
        (calls.filter fun call => call.ending == .crash).map fun _ => Warning.aborted).Perm
      (calls.filterMap PendingCall.complaint?) := by
  induction calls with
  | nil => exact List.Perm.nil
  | cons call calls ih =>
    rcases hending : call.ending with counters | fault | _
    · have hwarning : warning? call = none := by rw [warning?, hending]
      have hcomplaint : call.complaint? = none := by rw [PendingCall.complaint?, hending]
      rw [List.filterMap_cons_none hwarning, List.filterMap_cons_none hcomplaint,
        List.filter_cons_of_neg (by rw [hending]; exact Bool.false_ne_true)]
      exact ih
    · have hwarning : warning? call =
          some (.scrape call.target.service.name call.target.node.address fault) := by
        rw [warning?, hending]
      have hcomplaint : call.complaint? =
          some (.scrape call.target.service.name call.target.node.address fault) := by
        rw [PendingCall.complaint?, hending]
      rw [List.filterMap_cons_some hwarning, List.filterMap_cons_some hcomplaint,
        List.filter_cons_of_neg (by rw [hending]; exact Bool.false_ne_true), List.cons_append]
      exact ih.cons _
    · have hwarning : warning? call = none := by rw [warning?, hending]
      have hcomplaint : call.complaint? = some .aborted := by
        rw [PendingCall.complaint?, hending]
      rw [List.filterMap_cons_none hwarning, List.filterMap_cons_some hcomplaint,
        List.filter_cons_of_pos (by rw [hending]; rfl), List.map_cons]
      exact List.perm_middle.trans (ih.cons _)

/-- What is warned of at the present moment and what is warned of later make up everything
that there was to warn of. -/
theorem warnings_append_complaints (tick : Tick) (now : Nat) (timestamp : UInt64) :
    (tick.warnings now ++ (tick.settle now timestamp).complaints).Perm tick.complaints := by
  have hsplit : (tick.settled now ++ (tick.settle now timestamp).pending).Perm tick.pending := by
    have hlater : tick.pending.filter (now < ·.ends) =
        tick.pending.filter fun call => !decide (call.ends ≤ now) := by
      refine List.filter_congr fun call _ => ?_
      rw [← decide_not, decide_eq_decide]
      exact Nat.not_le.symm
    rw [settled, settle, hlater]
    exact List.filter_append_perm _ tick.pending
  have hjoined := hsplit.filterMap PendingCall.complaint?
  rw [List.filterMap_append] at hjoined
  exact ((warnings_perm_filterMap (tick.settled now)).append_right _).trans hjoined

/-! ## The end of the last call -/

/-- A tick has ended by a time if all its calls have. -/
theorem endsAt_le_iff {time : Nat} :
    tick.endsAt now ≤ time ↔ now ≤ time ∧ ∀ call ∈ tick.pending, call.ends ≤ time := by
  unfold endsAt
  generalize tick.pending = calls
  induction calls generalizing now with
  | nil => simp
  | cons call calls ih => rw [List.foldl_cons, ih, Nat.max_le, List.forall_mem_cons, and_assoc]

theorem le_endsAt : now ≤ tick.endsAt now := (endsAt_le_iff.1 (Nat.le_refl _)).1

theorem ends_le_endsAt {call : PendingCall} (h : call ∈ tick.pending) :
    call.ends ≤ tick.endsAt now :=
  (endsAt_le_iff.1 (Nat.le_refl _)).2 call h

theorem endsAt_of_isOver (h : tick.isOver) : tick.endsAt now = now := by
  have hpending : tick.pending = [] := List.isEmpty_iff.1 h
  unfold endsAt
  rw [hpending]
  rfl

/-- The calls that are left have not ended yet. -/
theorem pending_settle_ends {time : Nat} {timestamp : UInt64} {call : PendingCall}
    (h : call ∈ (tick.settle time timestamp).pending) :
    call ∈ tick.pending ∧ time < call.ends := by
  obtain ⟨hmem, hends⟩ := List.mem_filter.1 h
  exact ⟨hmem, of_decide_eq_true hends⟩

/-- Going on to a moment that is not beyond the last call leaves the end of the last call where
it was. -/
theorem endsAt_settle {time : Nat} (hnow : now ≤ time) (htime : time ≤ tick.endsAt now)
    (timestamp : UInt64) : (tick.settle time timestamp).endsAt time = tick.endsAt now := by
  refine Nat.le_antisymm (endsAt_le_iff.2 ⟨htime, fun call hcall => ?_⟩)
    (endsAt_le_iff.2 ⟨Nat.le_trans hnow le_endsAt, fun call hcall => ?_⟩)
  · exact ends_le_endsAt (pending_settle_ends hcall).1
  · by_cases hends : time < call.ends
    · exact ends_le_endsAt (List.mem_filter.2 ⟨hcall, decide_eq_true hends⟩)
    · exact Nat.le_trans (Nat.le_of_not_lt hends) le_endsAt

end Tick

end Vitals
