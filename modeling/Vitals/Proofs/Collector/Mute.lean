import Vitals.Proofs.Collector.Stop

/-!
# A pair that might as well have been told to stop

As long as every loop of a pair waits for its task, and ends with it, the collector is what it would
be had the pair been told to stop, but for the signals of its loops (`Run.muted`) : every move keeps
it so (`Run.muted_move`). Giving up the means of telling the pair anything makes it so if none of its
loops is due (`Run.muted_drop`).
-/

set_option linter.unusedSectionVars false

namespace Vitals

namespace Loop

variable {session now : Nat} {loop : Loop}

/-- The loop, told to stop if it belongs to the pair. -/
def mute (session : Nat) (loop : Loop) : Loop :=
  if loop.session = session then { loop with signal := .stopped } else loop

theorem mute_of_ne (h : loop.session ≠ session) : loop.mute session = loop := if_neg h

@[simp] theorem session_mute : (loop.mute session).session = loop.session := by
  unfold mute
  split <;> rfl

@[simp] theorem task_mute : (loop.mute session).task = loop.task := by
  unfold mute
  split <;> rfl

@[simp] theorem busy_mute : (loop.mute session).busy = loop.busy := by
  unfold mute
  split <;> rfl

@[simp] theorem deadline_mute : (loop.mute session).deadline = loop.deadline := by
  unfold mute
  split <;> rfl

@[simp] theorem isDue_mute : (loop.mute session).isDue now = loop.isDue now := by
  rw [isDue, isDue, busy_mute, deadline_mute]

/-- A loop that ends with its task does so if it has been told to stop. -/
theorem free_mute (h : loop.session = session → loop.free now = none) :
    (loop.mute session).free now = (loop.free now).map (mute session) := by
  by_cases hsession : loop.session = session
  · rw [h hsession, mute, if_pos hsession]
    rfl
  · rw [mute_of_ne hsession]
    cases hfree : loop.free now with
    | none => rfl
    | some kept =>
      obtain ⟨rfl, -⟩ := free_eq_some hfree
      have hfreed : { loop with busy := false }.session ≠ session := hsession
      exact congrArg some (mute_of_ne hfreed).symm

/-- Being told to stop before changes nothing of what a busy loop of the pair does when it is told
something. -/
theorem tell_mute (h : loop.session = session → loop.busy) (signal : Signal) :
    (loop.mute session).tell now signal = (loop.tell now signal).map (mute session) := by
  by_cases hsession : loop.session = session
  · simp [mute, tell, note, hsession, h hsession]
  · rw [mute_of_ne hsession]
    cases htell : loop.tell now signal with
    | none => rfl
    | some kept =>
      obtain ⟨rfl, -⟩ := tell_eq_some htell
      have hnoted : (loop.note signal).session ≠ session := hsession
      exact congrArg some (mute_of_ne hnoted).symm

end Loop

namespace Run

variable {ρ : Type} [Discovery ρ] {run : Run ρ} {session : Nat} {kept : Loop → Prop}

/-- The collector, had the pair been told to stop. -/
def muted (session : Nat) (run : Run ρ) : Run ρ :=
  { run with loops := run.loops.map (Loop.mute session) }

/-- Time stands still at the same moments, since the deadlines are the same. -/
theorem nextTime?_muted : (run.muted session).nextTime? = run.nextTime? := by
  have hdeadlines : ((run.loops.map (Loop.mute session)).filter (!·.busy)).map (·.deadline) =
      (run.loops.filter (!·.busy)).map (·.deadline) := by
    rw [List.filter_map, List.map_map]
    simp [Function.comp_def]
  rw [nextTime?, muted, hdeadlines]
  rfl

/-! ## What does not look at the loops -/

/-- A tick begins without a look at the loops. -/
theorem beginTick_loops (run : Run ρ) (loops : List Loop) (owner : Option Nat) :
    { run with loops }.beginTick owner = { run.beginTick owner with loops } := by
  rw [beginTick_eq, beginTick_eq]
  rfl

/-- A refresh begins without a look at the loops. -/
theorem refreshNow_loops (run : Run ρ) (loops : List Loop) :
    { run with loops }.refreshNow.1 = { run.refreshNow.1 with loops } := by
  unfold refreshNow
  simp only [warn_eq, note]

/-- Calls end without a look at the loops. -/
theorem settleCalls_loops (run : Run ρ) (loops : List Loop) :
    { run with loops }.settleCalls = { run.settleCalls with loops } := by
  have htold : ∀ (ticks : List Tick) (state : Run ρ),
      ticks.foldl (fun run tick => run.warn (tick.warnings run.now)) { state with loops } =
        { ticks.foldl (fun run tick => run.warn (tick.warnings run.now)) state with loops } := by
    intro ticks
    induction ticks with
    | nil => exact fun _ => rfl
    | cons tick ticks ih =>
      intro state
      rw [List.foldl_cons, List.foldl_cons, ← ih, warn_eq, warn_eq]
  unfold settleCalls
  exact htold run.ticks { run with ticks := run.ticks.map (Tick.settle run.now run.timestamp) }

/-- What does not look at the loops does the same to a collector of which a pair has been told to
stop. -/
theorem muted_of_loops (f : Run ρ → Run ρ)
    (h : ∀ (run : Run ρ) (loops : List Loop), f { run with loops } = { f run with loops }) :
    f (run.muted session) = (f run).muted session := by
  have hsame : (f run).loops = run.loops := (congrArg Run.loops (h run run.loops) :)
  exact (h run _).trans (by rw [muted, hsame])

/-! ## Loops that proceed -/

/-- A loop that is due is none of the pair. -/
theorem filter_getElem?_muted (h : run.Lingers session kept) (place : Nat) {open? : Loop → Bool}
    (hopen : ∀ loop, open? loop → loop.isDue run.now) :
    (run.muted session).loops[place]?.filter open? = run.loops[place]?.filter open? := by
  rw [muted, List.getElem?_map]
  cases hplace : run.loops[place]? with
  | none => rfl
  | some loop =>
    by_cases hsession : loop.session = session
    · have hidle : loop.isDue run.now = false := Bool.eq_false_iff.2 fun hdue =>
        h.ne_of_isDue (List.mem_of_getElem? hplace) hdue hsession
      have hclosed : ∀ other : Loop, other.isDue run.now = false → open? other = false :=
        fun other hother => Bool.eq_false_iff.2 fun hopened =>
          Bool.false_ne_true (hother.symm.trans (hopen other hopened))
      have hmuted := hclosed (loop.mute session) (Loop.isDue_mute.trans hidle)
      simp [Option.filter, hclosed loop hidle, hmuted]
    · rw [Option.map_some, Loop.mute_of_ne hsession]

/-- The loop that begins its task is the same one : it is due, so it is none of the pair. -/
theorem fired?_muted (h : run.Lingers session kept) (place : Nat) :
    (run.muted session).fired? (.fire place) = run.fired? (.fire place) :=
  filter_getElem?_muted h place fun _ hdue => hdue

/-- A loop that begins its task is none of the pair. -/
theorem muted_fire (h : run.Lingers session kept) (place : Nat) :
    (run.muted session).move (.fire place) = (run.move (.fire place)).muted session := by
  simp only [move, fired?_muted h]
  cases hloop : run.fired? (.fire place) with
  | none => rfl
  | some loop =>
    obtain ⟨_, -, hmem, hdue⟩ := fired?_eq_some_iff.1 hloop
    have hother := h.ne_of_isDue (List.mem_of_getElem? hmem) hdue
    have hfired : (run.fired loop).toList.map (Loop.mute session) = (run.fired loop).toList := by
      refine List.map_congr_left (fun left hleft => ?_) |>.trans (List.map_id _)
      refine Loop.mute_of_ne fun hsession => hother ?_
      have hleft := Option.mem_toList.1 hleft
      unfold fired at hleft
      split at hleft
      · obtain ⟨rfl, -⟩ := Loop.free_eq_some hleft
        exact hsession
      · obtain rfl := Option.some.inj hleft
        exact hsession
    calc { run with loops := (run.loops.map (Loop.mute session)).eraseIdx place }.fire loop
        = { run.fire loop with
            loops := (run.loops.map (Loop.mute session)).eraseIdx place ++
              (run.fired loop).toList } := fire_eq run loop _
      _ = { run.fire loop with
            loops := run.loops.eraseIdx place ++ (run.fired loop).toList }.muted session := by
          rw [muted, List.map_append, hfired, List.eraseIdx_map]
      _ = ({ run with loops := run.loops.eraseIdx place }.fire loop).muted session := by
          rw [fire_eq run loop (run.loops.eraseIdx place)]

/-- A loop that ends in its turn is none of the pair. -/
theorem muted_leave (h : run.Lingers session kept) (place : Nat) :
    (run.muted session).move (.leave place) = (run.move (.leave place)).muted session := by
  have hleaves : (run.muted session).loops[place]?.filter (·.mayLeave run.now) =
      run.loops[place]?.filter (·.mayLeave run.now) :=
    filter_getElem?_muted h place fun _ hleave => (Bool.and_eq_true_iff.1 hleave).1
  have hnow : (run.muted session).now = run.now := rfl
  simp only [move, hnow, hleaves]
  cases run.loops[place]?.filter (·.mayLeave run.now) with
  | none => rfl
  | some loop => simp only [muted, List.eraseIdx_map]

/-! ## Tasks that end -/

/-- The loop that waited for a task is freed alike if, being one of the pair, it ends with the task
anyway. -/
theorem loopsAfter_muted {task : Task} {owner : Option Nat}
    (hends : ∀ loop ∈ run.loops, loop.session = session → owner = some session →
      loop.task = task → loop.free run.now = none) :
    (run.muted session).loopsAfter task owner =
      (run.loopsAfter task owner).map (Loop.mute session) := by
  cases owner with
  | none => rfl
  | some owner =>
    have hfreed : ∀ loop ∈ run.loops,
        (if (loop.mute session).session = owner ∧ (loop.mute session).task = task ∧
            (loop.mute session).busy then (loop.mute session).free run.now
          else some (loop.mute session)) =
          (if loop.session = owner ∧ loop.task = task ∧ loop.busy then loop.free run.now
            else some loop).map (Loop.mute session) := by
      intro loop hloop
      rw [Loop.session_mute, Loop.task_mute, Loop.busy_mute]
      split
      · rename_i hown
        exact Loop.free_mute fun hsession =>
          hends loop hloop hsession (congrArg some (hown.1.symm.trans hsession)) hown.2.1
      · rfl
    exact List.filterMap_map.trans ((List.filterMap_congr hfreed).trans List.map_filterMap.symm)

/-- A tick that ends takes the loop of the pair that waits for it along. -/
theorem muted_finish {place : Nat} (hends : run.EndsWith session (run.ended? (.finish place))) :
    (run.muted session).move (.finish place) = (run.move (.finish place)).muted session := by
  have hended : (run.muted session).ended? (.finish place) = run.ended? (.finish place) := rfl
  simp only [move, hended]
  cases hlate : run.ended? (.finish place) with
  | none => rfl
  | some late =>
    have hloops : (run.muted session).loopsAfter .scrape late.tick.session =
        (run.loopsAfter .scrape late.tick.session).map (Loop.mute session) :=
      loopsAfter_muted fun loop hloop hsession howner _ =>
        hends loop hloop hsession fun _ => ⟨late, hlate, howner⟩
    have hticks : ∀ (state : Run ρ) (ticks : List Tick) (owner : Option Nat),
        { state with ticks }.loopsAfter .scrape owner = state.loopsAfter .scrape owner := by
      intro state ticks owner
      cases owner <;> rfl
    simp only [endTick_eq]
    rw [hticks, hticks, hloops]
    rfl

/-- The end of a refresh looks at the loops only to free the one that waited for it. -/
theorem endRescan_loops (run : Run ρ) (loops : List Loop) (owner : Option Nat)
    (result : Except RegistryFault Scan) :
    { run with loops }.endRescan owner result =
      { run.endRescan owner result with
        loops := { run with loops }.loopsAfter .refresh owner } := by
  unfold endRescan loopsAfter
  cases owner with
  | none => rfl
  | some owner =>
    cases result with
    | ok scan => rfl
    | error fault => rfl

/-- A refresh that ends takes the loop of the pair that waits for it along. -/
theorem muted_endRescan (run : Run ρ) (owner : Option Nat) (result : Except RegistryFault Scan)
    (hends : run.EndsWith session none) :
    (run.muted session).endRescan owner result = (run.endRescan owner result).muted session := by
  have hmuted : (run.muted session).loopsAfter .refresh owner =
      (run.loopsAfter .refresh owner).map (Loop.mute session) :=
    loopsAfter_muted fun loop hloop hsession _ htask =>
      hends loop hloop hsession fun hscrape => absurd (hscrape.symm.trans htask) nofun
  have hloops : (run.endRescan owner result).loops = run.loopsAfter .refresh owner :=
    congrArg Run.loops (run.endRescan_loops run.loops owner result)
  calc (run.muted session).endRescan owner result
      = { run.endRescan owner result with
          loops := (run.muted session).loopsAfter .refresh owner } := run.endRescan_loops _ owner result
    _ = (run.endRescan owner result).muted session := by rw [hmuted, ← hloops, muted]

/-- The registry answers both alike. -/
theorem muted_answer (place : Nat) (hends : run.EndsWith session none) :
    (run.muted session).answer place = (run.answer place).muted session := by
  cases hrescan : run.rescans[place]? with
  | none => rw [run.answer_eq_of_none hrescan, (run.muted session).answer_eq_of_none hrescan]
  | some rescan =>
    have hrescan' : (run.muted session).rescans[place]? = some rescan := hrescan
    have hregistry : (run.muted session).registry = run.registry := rfl
    simp only [answer, hrescan, hrescan', hregistry, warn_eq]
    cases hanswer : rescan.survey.answer (Discovery.view run.registry) with
    | waits survey => rfl
    | done result =>
      let warned := toldAt run.now (rescan.survey.warnings (Discovery.view run.registry))
      exact muted_endRescan
        { run with
          rescans := run.rescans.eraseIdx place
          log := warningEntries warned ++ run.log } rescan.session result hends

/-! ## Loops that are started or told something -/

/-- A pair that is started is another one. -/
theorem muted_arm (h : run.Lingers session kept) :
    (run.muted session).arm = run.arm.muted session := by
  have hother : run.sessions ≠ session := (Nat.ne_of_lt h.started).symm
  unfold arm muted
  simp only [List.map_append, List.map_cons, List.map_nil, Loop.mute, if_neg hother]

/-- Loops that wait for their tasks only note what they are told, and a later signal does not
outweigh that to stop. -/
theorem muted_tell (h : run.Lingers session kept) (other : Nat) (signal : Signal) :
    (run.muted session).tell other signal = (run.tell other signal).muted session := by
  have htold : ∀ loop ∈ run.loops,
      (if (loop.mute session).session = other then (loop.mute session).tell run.now signal
        else some (loop.mute session)) =
        (if loop.session = other then loop.tell run.now signal else some loop).map
          (Loop.mute session) := by
    intro loop hloop
    rw [Loop.session_mute]
    split
    · exact Loop.tell_mute (fun hsession => (h.waits loop hloop hsession).1) signal
    · rfl
  unfold tell muted
  rw [List.filterMap_map, List.map_filterMap]
  exact congrArg (fun loops => { run with loops }) (List.filterMap_congr htold)

/-- As long as the loops of the pair wait for their tasks and end with them, the pair might as well
have been told to stop. -/
theorem muted_move (h : run.Lingers session kept) {move : Move ρ}
    (hends : run.EndsWith session (run.ended? move)) :
    (run.muted session).move move = (run.move move).muted session := by
  cases move with
  | wait millis =>
    simp only [Run.move, pass, nextTime?_muted]
    rfl
  | settle => exact muted_of_loops settleCalls settleCalls_loops
  | fire place => exact muted_fire h place
  | leave place => exact muted_leave h place
  | finish place => exact muted_finish hends
  | answer place => exact muted_answer place hends
  | scrape =>
    exact muted_of_loops (·.beginTick none) fun run loops => run.beginTick_loops loops none
  | refresh =>
    simp only [Run.move]
    split
    · exact muted_of_loops (·.refreshNow.1) refreshNow_loops
    · rfl
  | start => exact muted_arm h
  | stop other => exact muted_tell h other .stopped
  | drop other => exact muted_tell h other .dropped
  | letGo | changeRegistry | changeNodes | read | write | stream => rfl

/-- A pair of which no loop is due might as well be told to stop as be given up. -/
theorem muted_drop (hidle : ∀ loop ∈ run.loops, loop.session = session →
      loop.isDue run.now = false) :
    (run.move (.drop session)).muted session = run.move (.stop session) := by
  have htold : ∀ loop ∈ run.loops,
      (if loop.session = session then loop.tell run.now .dropped else some loop).map
          (Loop.mute session) =
        if loop.session = session then loop.tell run.now .stopped else some loop := by
    intro loop hloop
    by_cases hsession : loop.session = session
    · have hdue := hidle loop hloop hsession
      rw [if_pos hsession, if_pos hsession]
      cases hbusy : loop.busy with
      | true => simp [Loop.tell, Loop.note, Loop.mute, hbusy, hsession]
      | false =>
        have hlater : ¬loop.deadline ≤ run.now := by simpa [Loop.isDue, hbusy] using hdue
        simp [Loop.tell, hbusy, hlater]
    · rw [if_neg hsession, if_neg hsession, Option.map_some, Loop.mute_of_ne hsession]
  have hmove : ∀ signal, run.tell session signal = { run with
      loops := run.loops.filterMap fun loop =>
        if loop.session = session then loop.tell run.now signal else some loop } := fun _ => rfl
  rw [move, move, hmove, hmove, muted, List.map_filterMap]
  exact congrArg (fun loops => { run with loops }) (List.filterMap_congr htold)

end Run

end Vitals
