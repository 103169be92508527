import Vitals.Collector.Run
import Vitals.Proofs.Collector.Node
import Vitals.Proofs.Collector.Tick

/-!
# Scrapes from their beginning to their end

A tick that begins calls every eligible node at once (`Run.beginTick_eq`). With no loop and no
other tick about, only its calls make anything happen : a moment takes in those that end then,
and publishes the batch if none is left (`Run.instant_of_alone`). Time goes from one such moment
to the next, so that it reaches the end of the last call with the whole outcome published
(`Run.advance_of_alone`).
-/

set_option linter.unusedSectionVars false

namespace Vitals.Run

variable {ρ : Type} [Discovery ρ]

/-! ## What is noted -/

/-- The entries of warnings, each with its time. -/
def warningEntries (told : List (Nat × Warning)) : List Entry :=
  told.map fun (time, warning) => ⟨time, .warned warning⟩

/-- The warnings that are given at `now`, the latest first. -/
def toldAt (now : Nat) (warnings : List Warning) : List (Nat × Warning) :=
  (warnings.map (now, ·)).reverse

/-- What is noted of warnings are these warnings. -/
theorem toldAt_perm (now : Nat) (warnings : List Warning) :
    ((toldAt now warnings).map Prod.snd).Perm warnings := by
  rw [toldAt, List.map_reverse, List.map_map]
  exact (List.reverse_perm _).trans (List.Perm.of_eq (List.map_id warnings))

theorem warn_eq (run : Run ρ) (warnings : List Warning) :
    run.warn warnings =
      { run with log := warningEntries (toldAt run.now warnings) ++ run.log } := by
  induction warnings generalizing run with
  | nil => rfl
  | cons warning warnings ih =>
    have hwarn : run.warn (warning :: warnings) = (run.note (.warned warning)).warn warnings := rfl
    rw [hwarn, ih, note, toldAt, toldAt, List.map_cons, List.reverse_cons, warningEntries,
      warningEntries, List.map_append, List.append_assoc]
    rfl

/-- The entries of the calls that tick `number` makes at `now`. -/
def callEntries (now number : Nat) (targets : List Target) : List Entry :=
  targets.map fun target => ⟨now, .called number target.call target.node.address⟩

theorem timestamp_eq (run : Run ρ) : run.timestamp = stamp run.epoch run.now := rfl

/-! ## The beginning of a tick -/

theorem foldl_callTarget (number : Nat) (targets : List Target) (run : Run ρ)
    (pending : List PendingCall) :
    targets.foldl (callTarget number) (run, pending) =
      ({ run with
          fleet := run.fleet.noteCalls targets
          log := (callEntries run.now number targets).reverse ++ run.log },
        pending ++ (run.fleet.attempts targets).map
          (·.pending run.config.callTimeout run.now)) := by
  induction targets generalizing run pending with
  | nil => rw [Fleet.attempts, List.map_nil, List.append_nil]; rfl
  | cons target targets ih =>
    rw [List.foldl_cons, callTarget]
    simp only [Behaviour.settle_eq]
    rw [ih]
    simp only [note, Fleet.attempts, Fleet.noteCalls, List.foldl_cons, callEntries, List.map_cons,
      List.reverse_cons, List.append_assoc, List.cons_append, List.nil_append]
    rfl

/-- The nodes that a tick would call. -/
def targets (run : Run ρ) : List Target :=
  eligibleTargets run.fleet.protocol run.directory.services

/-- The calls that a tick would make. -/
def attempts (run : Run ρ) : List Attempt := run.fleet.attempts run.targets

/-- The tick that begins. -/
def nextTick (run : Run ρ) (session : Option Nat) : Tick where
  number := run.ticksBegun
  session := session
  eligible := run.targets.length
  pending := run.attempts.map (·.pending run.config.callTimeout run.now)
  batch := []

/-- A tick takes the calls of its targets with it and leaves notes of them. -/
theorem beginTick_eq (run : Run ρ) (session : Option Nat) :
    run.beginTick session =
      { run with
        fleet := run.fleet.noteCalls run.targets
        ticks := run.ticks ++ [run.nextTick session]
        ticksBegun := run.ticksBegun + 1
        log := (callEntries run.now run.ticksBegun run.targets).reverse ++
          ⟨run.now, .tickBegan run.ticksBegun session⟩ :: run.log } := by
  unfold beginTick
  simp only [note]
  rw [foldl_callTarget]
  rfl

/-! ## A tick with nothing else about -/

/-- The tick is all that is under way. -/
structure Alone (run : Run ρ) (tick : Tick) : Prop where
  ticks : run.ticks = [tick]
  rescans : run.rescans = []
  loops : run.loops = []
  /-- The tick was asked for by hand. -/
  session : tick.session = none

variable {run : Run ρ} {tick : Tick}

/-- The calls that end at `time` have been taken in. -/
def passed (run : Run ρ) (tick : Tick) (time : Nat) : Run ρ :=
  { run with
    now := time
    ticks := [tick.settle time (stamp run.epoch time)]
    log := warningEntries (toldAt time (tick.warnings time)) ++ run.log }

/-- The tick has ended and its batch is published. -/
def ended (run : Run ρ) (tick : Tick) : Run ρ :=
  { run with
    published := run.published.publish tick.batch
    ticks := []
    log := ⟨run.now, .tickEnded tick.number tick.report tick.batch⟩ :: run.log }

/-- The registry has nothing to answer when no refresh is under way. -/
theorem answerAll_eq_self (h : run.rescans = []) : run.answerAll = run := by
  rw [answerAll, answersLeft, h]
  rfl

/-- A moment takes in the calls that end then, and ends the tick if none is left. -/
theorem instant_of_alone (h : run.Alone tick) (time : Nat) :
    let settled := tick.settle time (stamp run.epoch time)
    { run with now := time }.instant =
      if settled.isOver then (run.passed tick time).ended settled else run.passed tick time := by
  intro settled
  have hsettle : { run with now := time }.settleCalls = run.passed tick time := by
    unfold settleCalls
    simp only [h.ticks, List.map_cons, List.map_nil, List.foldl_cons, List.foldl_nil, warn_eq,
      timestamp_eq]
    rfl
  have hfire : (run.passed tick time).fireLoops = run.passed tick time := by
    have hloops : (run.passed tick time).loops = [] := h.loops
    unfold fireLoops
    rw [hloops]
    simp only [List.filter_nil, List.foldl_nil]
    rw [← hloops]
  have hsession : settled.session = none := h.session
  have hended : (run.passed tick time).endTicks =
      if settled.isOver then (run.passed tick time).ended settled else run.passed tick time := by
    rw [endTicks]
    by_cases hover : settled.isOver
    · simp [passed, settled, hover, endTick, ended, note, hsession]
    · simp [passed, settled, hover]
  rw [instant, hsettle, hfire, hended]
  split <;> exact answerAll_eq_self h.rescans

/-- The next moment at which something happens is the earliest end of a call, or the present
one if there is no call. -/
theorem nextTime?_of_alone (h : run.Alone tick)
    (hpending : ∀ call ∈ tick.pending, run.now ≤ call.ends) :
    ∃ time, run.nextTime? = some time ∧ run.now ≤ time ∧ time ≤ tick.endsAt run.now ∧
      (∀ call ∈ tick.pending, time ≤ call.ends) ∧
      (tick.pending ≠ [] → ∃ first ∈ tick.pending, time = first.ends) := by
  have hnext : run.nextTime? =
      some (max run.now ((tick.pending.map (·.ends)).min?.getD run.now)) := by
    unfold nextTime?
    rw [h.ticks, h.loops]
    rfl
  cases hmin : (tick.pending.map (·.ends)).min? with
  | none =>
    have hnone : tick.pending = [] := List.map_eq_nil_iff.1 (List.min?_eq_none_iff.1 hmin)
    rw [hmin, Option.getD_none, Nat.max_self] at hnext
    refine ⟨run.now, hnext, Nat.le_refl _, Tick.le_endsAt, hpending, fun hsome => ?_⟩
    exact absurd hnone hsome
  | some first =>
    obtain ⟨hfirst, hleast⟩ := List.min?_eq_some_iff.1 hmin
    obtain ⟨call, hcall, rfl⟩ := List.mem_map.1 hfirst
    rw [hmin, Option.getD_some, Nat.max_eq_right (hpending call hcall)] at hnext
    exact ⟨call.ends, hnext, hpending call hcall, Tick.ends_le_endsAt hcall,
      fun other hother => hleast _ (List.mem_map_of_mem hother), fun _ => ⟨call, hcall, rfl⟩⟩

/-- Where nothing is under way time passes without effect. -/
theorem advance_of_idle (hticks : run.ticks = []) (hloops : run.loops = []) (target : Nat)
    (moments : Nat) : run.advance target moments = { run with now := max run.now target } := by
  have hnext : run.nextTime? = none := by
    unfold nextTime?
    rw [hticks, hloops]
    rfl
  cases moments with
  | zero => rfl
  | succ moments => rw [advance, hnext]

/-- The tick has ended with its whole outcome, at the end of its last call. -/
def completed (run : Run ρ) (tick : Tick) (told : List (Nat × Warning)) : Run ρ :=
  let time := tick.endsAt run.now
  let batch := tick.outcome run.epoch
  { run with
    now := time
    published := run.published.publish batch
    ticks := []
    log := ⟨time, .tickEnded tick.number ⟨tick.eligible, batch.length⟩ batch⟩ ::
      warningEntries told ++ run.log }

theorem ended_eq_completed (h : tick.isOver) : run.ended tick = run.completed tick [] := by
  rw [completed, Tick.endsAt_of_isOver h, Tick.outcome_of_isOver h]
  rfl

/-- A tick that has ended is not waited for. -/
theorem advance_completed (hloops : run.loops = []) (told : List (Nat × Warning))
    (moments : Nat) :
    (run.completed tick told).advance (tick.endsAt run.now) moments =
      run.completed tick told := by
  have hticks : (run.completed tick told).ticks = [] := rfl
  have hloops' : (run.completed tick told).loops = [] := hloops
  rw [advance_of_idle hticks hloops']
  simp only [completed, Nat.max_self]

/-- On the way to the end of a tick, nothing of what it comes to changes. -/
theorem completed_passed {time : Nat} (hnow : run.now ≤ time)
    (htime : time ≤ tick.endsAt run.now) (hfirst : ∀ call ∈ tick.pending, time ≤ call.ends)
    (told : List (Nat × Warning)) :
    (run.passed tick time).completed (tick.settle time (stamp run.epoch time)) told =
      run.completed tick (told ++ toldAt time (tick.warnings time)) := by
  have hlast := Tick.endsAt_settle hnow htime (stamp run.epoch time)
  have houtcome := Tick.outcome_settle hfirst run.epoch
  simp only [completed, passed, hlast, houtcome, warningEntries, List.map_append,
    List.append_assoc, List.cons_append]
  rfl

/-- Time goes on to the end of the last call. By then the outcome of the tick has been
published, and everything that there was to warn of has been told. -/
theorem advance_of_alone (h : run.Alone tick) {earliest moments : Nat}
    (hearliest : run.now ≤ earliest) (hpending : ∀ call ∈ tick.pending, earliest ≤ call.ends)
    (hends : earliest ≤ tick.endsAt run.now)
    (hmoments : tick.endsAt run.now < earliest + moments) :
    ∃ told : List (Nat × Warning), (told.map Prod.snd).Perm tick.complaints ∧
      run.advance (tick.endsAt run.now) moments = run.completed tick told := by
  induction moments generalizing run tick earliest with
  | zero => omega
  | succ moments ih =>
    obtain ⟨time, hnext, hnow, htime, hfirst, hreached⟩ := nextTime?_of_alone h
      fun call hcall => Nat.le_trans hearliest (hpending call hcall)
    have hstep : run.advance (tick.endsAt run.now) (moments + 1) =
        { run with now := time }.instant.advance (tick.endsAt run.now) moments := by
      rw [advance, hnext]
      exact if_pos htime
    have hlast := Tick.endsAt_settle hnow htime (stamp run.epoch time)
    have hcomplaints := Tick.warnings_append_complaints tick time (stamp run.epoch time)
    have htold := toldAt_perm time (tick.warnings time)
    rw [hstep, instant_of_alone h]
    split
    · rename_i hover
      refine ⟨toldAt time (tick.warnings time), ?_, ?_⟩
      · rw [Tick.complaints_of_isOver hover, List.append_nil] at hcomplaints
        exact htold.trans hcomplaints
      · rw [ended_eq_completed hover, completed_passed hnow htime hfirst, List.nil_append,
          advance_completed h.loops]
    · rename_i hover
      have halone : (run.passed tick time).Alone (tick.settle time (stamp run.epoch time)) :=
        ⟨rfl, h.rescans, h.loops, h.session⟩
      obtain ⟨call, hcall⟩ := List.exists_mem_of_ne_nil _ (mt List.isEmpty_iff.2 hover)
      have hlater : ∀ call ∈ (tick.settle time (stamp run.epoch time)).pending,
          time + 1 ≤ call.ends := fun call hcall => (Tick.pending_settle_ends hcall).2
      obtain ⟨first, hmem, hreached⟩ :=
        hreached (List.ne_nil_of_mem (Tick.pending_settle_ends hcall).1)
      have hmoments' : (tick.settle time (stamp run.epoch time)).endsAt time <
          time + 1 + moments := by
        have := hpending first hmem
        omega
      obtain ⟨told, hperm, heq⟩ := ih halone (Nat.le_succ time) hlater
        (Nat.le_trans (hlater call hcall) (Tick.ends_le_endsAt hcall)) hmoments'
      refine ⟨told ++ toldAt time (tick.warnings time), ?_, ?_⟩
      · rw [List.map_append]
        exact (hperm.append htold).trans (List.perm_append_comm.trans hcomplaints)
      · rw [← completed_passed hnow htime hfirst, ← heq]
        exact congrArg (fun target => (run.passed tick time).advance target moments) hlast.symm

theorem sleepUntil_of_alone (h : run.Alone tick)
    (hpending : ∀ call ∈ tick.pending, run.now ≤ call.ends) :
    ∃ told : List (Nat × Warning), (told.map Prod.snd).Perm tick.complaints ∧
      run.sleepUntil (tick.endsAt run.now) = run.completed tick told := by
  have hends : run.now ≤ tick.endsAt run.now := Tick.le_endsAt
  refine advance_of_alone h (Nat.le_refl run.now) hpending hends ?_
  rw [momentsUntil, h.ticks, h.loops]
  simp only [List.length_cons, List.length_nil]
  omega

end Vitals.Run
