import Vitals.Proofs.Collector.Run

/-!
# The parts of a moment

What each thing that can happen at a moment does to a collector, with the log as the only field
that is not spelt out : calls end (`Run.settleCalls_eq`), a loop begins its task
(`Run.fire_scrape_eq`, `Run.fire_refresh_eq`, `Run.fire_rescan_eq`), a tick is published
(`Run.endTick_eq`), the registry answers (`Run.answer_eq_of_waits`, `Run.answer_eq_of_done`).
Nothing that is under way is due before the next time at which something happens
(`Run.clearUntil_of_nextTime?`), and something is due at that time (`Run.due_of_nextTime?`).
-/

set_option linter.unusedSectionVars false

namespace Vitals

/-- The time between two deadlines of a loop with a task. -/
def CollectorConfig.interval (config : CollectorConfig) : Task → Nat
  | .scrape => config.scrapeInterval.millisUp
  | .refresh => config.refreshInterval.millisUp

theorem Loop.free_of_none {now : Nat} {loop : Loop} (h : loop.signal = .none) :
    loop.free now = some { loop with busy := false } := by
  unfold Loop.free
  split <;> simp_all

/-- A loop that goes on after its task is due again, or has been told nothing. -/
theorem Loop.free_eq_some {now : Nat} {loop kept : Loop} (h : loop.free now = some kept) :
    kept = { loop with busy := false } ∧
      (loop.signal = .none ∨ loop.signal = .dropped ∧ loop.deadline ≤ now) := by
  unfold Loop.free at h
  cases hsignal : loop.signal with
  | none => simp_all
  | stopped => simp_all
  | dropped =>
    rw [hsignal] at h
    split at h <;> simp_all

theorem Loop.note_of_stopped {signal : Signal} {loop : Loop} (h : loop.signal = .stopped) :
    loop.note signal = loop := by
  rw [Loop.note, if_pos h, ← h]

/-- What is told something and goes on takes note of it : it waits for its task, or is due. -/
theorem Loop.tell_eq_some {now : Nat} {signal : Signal} {loop kept : Loop}
    (h : loop.tell now signal = some kept) :
    kept = loop.note signal ∧
      (loop.busy = false → loop.deadline ≤ now ∧ (signal = .stopped → loop.fresh = false)) := by
  unfold Loop.tell at h
  grind

namespace Run

variable {ρ : Type} [Discovery ρ]

/-! ## What happens -/

theorem settleCalls_eq (run : Run ρ) :
    ∃ log, run.settleCalls =
      { run with ticks := run.ticks.map (Tick.settle run.now (stamp run.epoch run.now)), log } := by
  have htold : ∀ (ticks : List Tick) (state : Run ρ), ∃ log,
      ticks.foldl (fun run tick => run.warn (tick.warnings run.now)) state =
        { state with log } := by
    intro ticks
    induction ticks with
    | nil => exact fun state => ⟨state.log, rfl⟩
    | cons tick ticks ih =>
      intro state
      rw [List.foldl_cons, warn_eq]
      obtain ⟨log, hlog⟩ := ih { state with
        log := warningEntries (toldAt state.now (tick.warnings state.now)) ++ state.log }
      exact ⟨log, hlog⟩
  unfold settleCalls
  exact htold run.ticks _

theorem refreshNow_eq (run : Run ρ) :
    ∃ log, run.refreshNow.1 =
      { run with
        directory := (run.directory.refresh (Discovery.view run.registry)).2
        log } := by
  unfold refreshNow
  simp only [warn_eq, note]
  exact ⟨_, rfl⟩

theorem fire_scrape_eq (run : Run ρ) {loop : Loop} (h : loop.task = .scrape) :
    run.fire loop =
      { run with loops := run.loops ++ [loop.begun run.now] }.beginTick (some loop.session) := by
  unfold fire
  rw [h]

/-- A registry that answers at once lets the refresh be over at once. -/
theorem fire_refresh_eq (run : Run ρ) (hprompt : Discovery.prompt ρ = true) {loop : Loop}
    (h : loop.task = .refresh) :
    ∃ log, run.fire loop =
      { run with
        loops := run.loops ++ ((loop.begun run.now).free run.now).toList
        directory := (run.directory.refresh (Discovery.view run.registry)).2
        log } := by
  obtain ⟨log, hlog⟩ := refreshNow_eq
    { run with loops := run.loops ++ ((loop.begun run.now).free run.now).toList }
  unfold fire
  simp only [h, if_pos hprompt, hlog]
  split
  · exact ⟨log, rfl⟩
  · rw [warn_eq]
    exact ⟨_, rfl⟩

/-- A registry that takes its time leaves the refresh under way. -/
theorem fire_rescan_eq (run : Run ρ) (hslow : Discovery.prompt ρ = false) {loop : Loop}
    (h : loop.task = .refresh) :
    run.fire loop =
      { run with
        loops := run.loops ++ [loop.begun run.now]
        rescans := run.rescans ++ [{ session := some loop.session }] } := by
  unfold fire
  simp only [h, hslow, Bool.false_eq_true, if_false]

/-- The loops once a task is over that was begun by hand or by a loop of a pair. -/
def loopsAfter (run : Run ρ) (task : Task) : Option Nat → List Loop
  | some session => (run.freeLoop session task).loops
  | none => run.loops

theorem endTick_eq (run : Run ρ) (tick : Tick) :
    run.endTick tick =
      { run with
        published := run.published.publish tick.batch
        loops := run.loopsAfter .scrape tick.session
        log := ⟨run.now, .tickEnded tick.number tick.report tick.batch⟩ :: run.log } := by
  unfold endTick loopsAfter
  cases tick.session <;> rfl

theorem endRescan_eq (run : Run ρ) (session : Option Nat) (result : Except RegistryFault Scan) :
    ∃ log, run.endRescan session result =
      { run with
        directory := run.directory.adopt result
        loops := run.loopsAfter .refresh session
        log } := by
  unfold endRescan loopsAfter
  cases session with
  | none => exact ⟨_, rfl⟩
  | some session =>
    cases result with
    | ok scan => exact ⟨_, rfl⟩
    | error fault => exact ⟨_, rfl⟩

/-- An answer that leaves another one to be waited for changes nothing but that. -/
theorem answer_eq_of_waits (run : Run ρ) {place : Nat} {rescan : Rescan} {survey : Survey}
    (hrescan : run.rescans[place]? = some rescan)
    (hwaits : rescan.survey.answer (Discovery.view run.registry) = .waits survey) :
    ∃ log, run.answer place =
      { run with rescans := run.rescans.set place { rescan with survey }, log } := by
  unfold answer
  simp only [hrescan, hwaits, warn_eq]
  exact ⟨_, rfl⟩

/-- The last answer ends the refresh. -/
theorem answer_eq_of_done (run : Run ρ) {place : Nat} {rescan : Rescan}
    {result : Except RegistryFault Scan} (hrescan : run.rescans[place]? = some rescan)
    (hover : rescan.survey.answer (Discovery.view run.registry) = .done result) :
    ∃ log, run.answer place =
      { run with
        rescans := run.rescans.eraseIdx place
        directory := run.directory.adopt result
        loops := run.loopsAfter .refresh rescan.session
        log } := by
  unfold answer
  simp only [hrescan, hover, warn_eq]
  obtain ⟨log, hlog⟩ := endRescan_eq
    { run with
      rescans := run.rescans.eraseIdx place
      log := warningEntries (toldAt run.now (rescan.survey.warnings (Discovery.view run.registry)))
        ++ run.log } rescan.session result
  refine ⟨log, hlog.trans ?_⟩
  cases rescan.session <;> rfl

theorem answer_eq_of_none (run : Run ρ) {place : Nat} (h : run.rescans[place]? = none) :
    run.answer place = run := by
  unfold answer
  rw [h]

/-! ## The loops after a signal or a task -/

/-- The loops are the others, and the one that waited if it goes on. -/
theorem mem_freeLoop {run : Run ρ} {session : Nat} {task : Task} {loop : Loop} :
    loop ∈ (run.freeLoop session task).loops ↔
      (loop ∈ run.loops ∧ ¬(loop.session = session ∧ loop.task = task ∧ loop.busy)) ∨
        ∃ waiting ∈ run.loops, (waiting.session = session ∧ waiting.task = task ∧ waiting.busy) ∧
          waiting.free run.now = some loop := by
  unfold freeLoop
  simp only [List.mem_filterMap]
  constructor
  · rintro ⟨waiting, hmem, hkept⟩
    by_cases hown : waiting.session = session ∧ waiting.task = task ∧ waiting.busy
    · rw [if_pos hown] at hkept
      exact Or.inr ⟨waiting, hmem, hown, hkept⟩
    · rw [if_neg hown] at hkept
      obtain rfl := Option.some.inj hkept
      exact Or.inl ⟨hmem, hown⟩
  · rintro (⟨hmem, hown⟩ | ⟨waiting, hmem, hown, hkept⟩)
    · exact ⟨loop, hmem, if_neg hown⟩
    · exact ⟨waiting, hmem, (if_pos hown).trans hkept⟩

/-- The loops are those of other pairs, and those of this one that go on. -/
theorem mem_tell {run : Run ρ} {session : Nat} {signal : Signal} {loop : Loop} :
    loop ∈ (run.tell session signal).loops ↔
      (loop ∈ run.loops ∧ loop.session ≠ session) ∨
        ∃ waiting ∈ run.loops, waiting.session = session ∧
          waiting.tell run.now signal = some loop := by
  unfold tell
  simp only [List.mem_filterMap]
  constructor
  · rintro ⟨waiting, hmem, hkept⟩
    by_cases hown : waiting.session = session
    · rw [if_pos hown] at hkept
      exact Or.inr ⟨waiting, hmem, hown, hkept⟩
    · rw [if_neg hown] at hkept
      obtain rfl := Option.some.inj hkept
      exact Or.inl ⟨hmem, hown⟩
  · rintro (⟨hmem, hown⟩ | ⟨waiting, hmem, hown, hkept⟩)
    · exact ⟨loop, hmem, if_neg hown⟩
    · exact ⟨waiting, hmem, (if_pos hown).trans hkept⟩

/-- A loop after a task is one from before it, which may have been freed. -/
theorem origin_of_mem_freeLoop {run : Run ρ} {session : Nat} {task : Task} {loop : Loop}
    (h : loop ∈ (run.freeLoop session task).loops) :
    ∃ origin ∈ run.loops, origin.session = loop.session ∧ origin.task = loop.task ∧
      origin.interval = loop.interval ∧ origin.deadline = loop.deadline ∧
        origin.signal = loop.signal ∧ origin.fresh = loop.fresh := by
  rcases mem_freeLoop.1 h with ⟨hloop, -⟩ | ⟨waiting, hwaiting, -, hfree⟩
  · exact ⟨loop, hloop, rfl, rfl, rfl, rfl, rfl, rfl⟩
  · obtain ⟨rfl, -⟩ := Loop.free_eq_some hfree
    exact ⟨waiting, hwaiting, rfl, rfl, rfl, rfl, rfl, rfl⟩

/-- A loop that waits after a task waits for another one. -/
theorem busy_of_mem_freeLoop {run : Run ρ} {session : Nat} {task : Task} {loop : Loop}
    (h : loop ∈ (run.freeLoop session task).loops) (hbusy : loop.busy) :
    loop ∈ run.loops ∧ ¬(loop.session = session ∧ loop.task = task) := by
  rcases mem_freeLoop.1 h with ⟨hloop, hother⟩ | ⟨waiting, -, -, hfree⟩
  · exact ⟨hloop, fun hown => hother ⟨hown.1, hown.2, hbusy⟩⟩
  · obtain ⟨rfl, -⟩ := Loop.free_eq_some hfree
    exact absurd hbusy Bool.false_ne_true

/-- A loop after a signal is one from before it, which may have taken note. -/
theorem origin_of_mem_tell {run : Run ρ} {session : Nat} {signal : Signal} {loop : Loop}
    (h : loop ∈ (run.tell session signal).loops) :
    ∃ origin ∈ run.loops, loop = origin ∨ loop = origin.note signal := by
  rcases mem_tell.1 h with ⟨hloop, -⟩ | ⟨waiting, hwaiting, -, htold⟩
  · exact ⟨loop, hloop, Or.inl rfl⟩
  · exact ⟨waiting, hwaiting, Or.inr (Loop.tell_eq_some htold).1⟩

/-- A loop that waits goes on waiting, whatever loops are told. -/
theorem exists_mem_tell_of_busy {run : Run ρ} (session : Nat) (signal : Signal) {loop : Loop}
    (hloop : loop ∈ run.loops) (hbusy : loop.busy) :
    ∃ kept ∈ (run.tell session signal).loops,
      kept.session = loop.session ∧ kept.task = loop.task ∧ kept.busy := by
  by_cases hown : loop.session = session
  · exact ⟨_, mem_tell.2 (Or.inr ⟨loop, hloop, hown, if_pos hbusy⟩), rfl, rfl, hbusy⟩
  · exact ⟨loop, mem_tell.2 (Or.inl ⟨hloop, hown⟩), rfl, rfl, hbusy⟩

/-- The loops that are started wait for no tick, and the one that scrapes is due at once. -/
theorem mem_arm {run : Run ρ} {loop : Loop} (h : loop ∈ run.arm.loops) :
    loop ∈ run.loops ∨ loop.session = run.sessions ∧ loop.busy = false ∧
      loop.interval = run.config.interval loop.task ∧
        (loop.task = .scrape → loop.deadline = run.now) := by
  rcases List.mem_append.1 h with hold | hnew
  · exact Or.inl hold
  · rcases List.mem_cons.1 hnew with rfl | hnew
    · exact Or.inr ⟨rfl, rfl, rfl, fun _ => rfl⟩
    · obtain rfl := List.mem_singleton.1 hnew
      exact Or.inr ⟨rfl, rfl, rfl, nofun⟩

/-! ## The next time at which something happens -/

theorem foldl_earlier? (times : List Nat) : times.foldl earlier? none = times.min? := by
  have hsome : ∀ (times : List Nat) (best : Nat),
      times.foldl earlier? (some best) = some (times.foldl min best) := by
    intro times
    induction times with
    | nil => exact fun _ => rfl
    | cons time times ih => exact fun best => ih (min best time)
  cases times with
  | nil => rfl
  | cons time times => exact hsome times time

/-- The times at which a tick or a loop is due, as far as they are known. -/
def dueTimes (run : Run ρ) : List Nat :=
  run.ticks.map (fun tick => (tick.pending.map (·.ends)).min?.getD run.now) ++
    (run.loops.filter (!·.busy)).map (·.deadline)

theorem nextTime?_eq (run : Run ρ) : run.nextTime? = run.dueTimes.min?.map (max run.now) := by
  unfold nextTime?
  simp only [foldl_earlier?]
  rfl

theorem le_min?_getD_iff {times : List Nat} {now time : Nat} :
    time ≤ times.min?.getD now ↔ (times = [] → time ≤ now) ∧ ∀ other ∈ times, time ≤ other := by
  cases hmin : times.min? with
  | none =>
    have hnone : times = [] := List.min?_eq_none_iff.1 hmin
    simp [hnone]
  | some least =>
    obtain ⟨hmem, hleast⟩ := List.min?_eq_some_iff.1 hmin
    have hsome : times ≠ [] := List.ne_nil_of_mem hmem
    exact ⟨fun h => ⟨fun hnone => absurd hnone hsome, fun other hother =>
      Nat.le_trans h (hleast other hother)⟩, fun h => h.2 least hmem⟩

/-- Nothing that is under way is due before `time`. -/
structure ClearUntil (run : Run ρ) (time : Nat) : Prop where
  /-- A tick whose calls have all ended does not wait. -/
  ticks : ∀ tick ∈ run.ticks, tick.pending = [] → time ≤ run.now
  calls : ∀ tick ∈ run.ticks, ∀ call ∈ tick.pending, time ≤ max run.now call.ends
  loops : ∀ loop ∈ run.loops, loop.busy = false → time ≤ max run.now loop.deadline

theorem now_le_of_nextTime? {run : Run ρ} {time : Nat} (h : run.nextTime? = some time) :
    run.now ≤ time := by
  rw [nextTime?_eq] at h
  obtain ⟨least, -, rfl⟩ := Option.map_eq_some_iff.1 h
  exact Nat.le_max_left _ _

/-- Going on to the next time at which something happens passes nothing by. -/
theorem clearUntil_of_nextTime? {run : Run ρ} {time : Nat}
    (h : ∀ next, run.nextTime? = some next → time ≤ next) : run.ClearUntil time := by
  have hdue : ∀ due ∈ run.dueTimes, time ≤ max run.now due := by
    intro due hmem
    cases hmin : run.dueTimes.min? with
    | none => exact absurd hmem (by simp [List.min?_eq_none_iff.1 hmin])
    | some least =>
      have hnext : run.nextTime? = some (max run.now least) := by
        rw [nextTime?_eq, hmin]
        rfl
      have hleast := (List.min?_eq_some_iff.1 hmin).2 due hmem
      have hbound := h _ hnext
      omega
  have hticks : ∀ tick ∈ run.ticks,
      time ≤ max run.now ((tick.pending.map (·.ends)).min?.getD run.now) := fun tick htick =>
    hdue _ (List.mem_append_left _ (List.mem_map_of_mem htick))
  refine ⟨fun tick htick hover => ?_, fun tick htick call hcall => ?_, fun loop hloop hfree => ?_⟩
  · simpa [hover] using hticks tick htick
  · have hbound := hticks tick htick
    have hleast : (tick.pending.map (·.ends)).min?.getD run.now ≤ call.ends :=
      (le_min?_getD_iff.1 (Nat.le_refl _)).2 _ (List.mem_map.2 ⟨call, hcall, rfl⟩)
    omega
  · refine hdue _ (List.mem_append_right _ (List.mem_map_of_mem (List.mem_filter.2 ⟨hloop, ?_⟩)))
    rw [hfree]
    rfl

/-- Something is due at the next time at which something happens. -/
theorem due_of_nextTime? {run : Run ρ} {time : Nat} (h : run.nextTime? = some time) :
    (∃ tick ∈ run.ticks, tick.pending = [] ∧ time = run.now) ∨
      (∃ tick ∈ run.ticks, ∃ call ∈ tick.pending, time = max run.now call.ends) ∨
        ∃ loop ∈ run.loops, loop.busy = false ∧ time = max run.now loop.deadline := by
  rw [nextTime?_eq] at h
  obtain ⟨least, hmin, rfl⟩ := Option.map_eq_some_iff.1 h
  rcases List.mem_append.1 (List.min?_eq_some_iff.1 hmin).1 with hmem | hmem
  · obtain ⟨tick, htick, rfl⟩ := List.mem_map.1 hmem
    cases hends : (tick.pending.map (·.ends)).min? with
    | none =>
      refine Or.inl ⟨tick, htick, ?_, Nat.max_self run.now⟩
      exact List.map_eq_nil_iff.1 (List.min?_eq_none_iff.1 hends)
    | some ends =>
      obtain ⟨call, hcall, rfl⟩ := List.mem_map.1 (List.min?_eq_some_iff.1 hends).1
      exact Or.inr (Or.inl ⟨tick, htick, call, hcall, rfl⟩)
  · obtain ⟨loop, hloop, rfl⟩ := List.mem_map.1 hmem
    obtain ⟨hloop, hfree⟩ := List.mem_filter.1 hloop
    exact Or.inr (Or.inr ⟨loop, hloop, by simpa using hfree, rfl⟩)

/-- Nothing ever happens by itself when there is no next time. -/
theorem clearUntil_of_nextTime?_none {run : Run ρ} (h : run.nextTime? = none) (time : Nat) :
    run.ClearUntil time :=
  clearUntil_of_nextTime? fun next hnext => by
    rw [h] at hnext
    exact absurd hnext nofun

end Run

end Vitals
