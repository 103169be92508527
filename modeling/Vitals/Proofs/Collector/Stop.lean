import Vitals.Proofs.Collector.Commands
import Vitals.Proofs.Collector.Pair

/-!
# Loops that are told to stop

A pair of loops that is told to stop ends at once, but for a loop that waits for its task, which ends
with it, and a loop that is due just then, which may begin its task as well as end. `Run.Stopped` says
so ; every move keeps it (`Run.Stopped.step`), whatever else the pair is told and whatever other pairs
do. So each of its loops begins its task once more at most, and only at the moment at which it was
told (`Run.Stopped.length_beginnings_le_one`).

A shutdown lets the loops that are due proceed, and waits for those that are left, which all wait for
their tasks (`Run.Lingers`) : it returns when the last tick of the pair has ended (`Run.join_spec`).
What becomes of the ticks, of a shutdown, and of what the collector holds afterwards is put together
in `Run.stop_play` ; `Run.stop_atDeadline` is a pair of which both loops begin their tasks once more.
-/

set_option linter.unusedSectionVars false

namespace Vitals.Run

variable {ρ : Type} [Discovery ρ] {run next : Run ρ} {begun ended : List TickAt} {session : Nat}
  {task : Task} {fired : Option Loop} {early late : Option TickAt} {told : Option (Nat × Signal)}

/-! ## A pair that has been told to stop -/

/-- The pair of loops was told to stop when the collector was `called`. A loop of it that waits for
no task was due then, and had not only been started ; time has not gone on since. -/
structure Stopped (session : Nat) (run called : Run ρ) : Prop where
  started : session < run.sessions
  signal : ∀ loop ∈ run.loops, loop.session = session → loop.signal = .stopped
  idle : ∀ loop ∈ run.loops, loop.session = session → loop.busy = false →
    loop.deadline ≤ run.now ∧ run.now = called.now ∧
      ∃ origin ∈ called.loops, origin.session = session ∧ origin.task = loop.task ∧
        origin.isDue called.now ∧ origin.fresh = false

/-- No loop of the pair that has this task may begin it. -/
def Spent (session : Nat) (task : Task) (run : Run ρ) : Prop :=
  ∀ loop ∈ run.loops, loop.session = session → loop.task = task → loop.busy

theorem Spent.begins_eq_false (h : run.Spent session task) (move : Move ρ) :
    run.begins session task move = false := by
  refine Bool.eq_false_iff.2 fun hbegins => ?_
  obtain ⟨loop, hfired, hsession, htask⟩ := begins_iff.1 hbegins
  obtain ⟨_, -, hplace, hdue⟩ := fired?_eq_some_iff.1 hfired
  have hbusy := h loop (List.mem_of_getElem? hplace) hsession htask
  simp [Loop.isDue, hbusy] at hdue

/-- A loop that has been told to stop waits for its task once it has begun it, or is gone. -/
theorem Step.spent {loop : Loop} (h : Step run (some loop) early late told next)
    (horderly : run.Orderly begun ended) (hstopped : loop.signal = .stopped) :
    next.Spent loop.session loop.task := by
  have hrest : ∀ {before after : List Loop} {other : Loop}, run.loops = before ++ loop :: after →
      other ∈ before ++ after → ¬(other.session = loop.session ∧ other.task = loop.task) :=
    fun hloops hother hsame =>
      (horderly.apart_rest hloops).1 _ hother ⟨hsame.1.symm, hsame.2.symm⟩
  intro other hother hsession htask
  cases h with
  | fireScrape hloops _ _ hnext | fireRescan _ hloops _ _ hnext =>
    rw [hnext.loops] at hother
    rcases List.mem_append.1 hother with hother | hother
    · exact absurd ⟨hsession, htask⟩ (hrest hloops hother)
    · obtain rfl := List.mem_singleton.1 hother
      rfl
  | fireRefresh hloops _ _ hnext =>
    have hends : (loop.begun run.now).free run.now = none := by simp [Loop.free, Loop.begun, hstopped]
    rw [hnext.loops, hends, Option.toList_none, List.append_nil] at hother
    exact absurd ⟨hsession, htask⟩ (hrest hloops hother)

namespace Stopped

variable {called : Run ρ}

/-- A pair that is told to stop is left with the loops that wait for their tasks or are due just
then. -/
theorem of_tell (h : session < run.sessions) :
    (run.move (.stop session)).Stopped session run where
  started := h
  signal loop hloop hsession := by
    rcases mem_tell.1 hloop with ⟨-, hother⟩ | ⟨waiting, -, -, htell⟩
    · exact absurd hsession hother
    · obtain ⟨rfl, -⟩ := Loop.tell_eq_some htell
      exact ite_self _
  idle loop hloop hsession hfree := by
    rcases mem_tell.1 hloop with ⟨-, hother⟩ | ⟨waiting, hwaiting, howned, htell⟩
    · exact absurd hsession hother
    · obtain ⟨rfl, hidle⟩ := Loop.tell_eq_some htell
      have hfree : waiting.busy = false := hfree
      obtain ⟨hdeadline, hfresh⟩ := hidle hfree
      have hdue : waiting.isDue run.now := by simp [Loop.isDue, hfree, hdeadline]
      exact ⟨hdeadline, rfl, waiting, hwaiting, howned, rfl, hdue, hfresh rfl⟩

/-- A loop of the pair after a move was there before, and has not changed if it waits for no
task. -/
theorem exists_origin (h : run.Stopped session called)
    (hstep : Step run fired early late told next) {loop : Loop} (hloop : loop ∈ next.loops)
    (hsession : loop.session = session) :
    loop.signal = .stopped ∧ (loop.busy = false → loop ∈ run.loops) := by
  rcases hstep.origin hloop with ⟨origin, horigin, hbecomes⟩ | ⟨hnew, -⟩
  · obtain ⟨hstopped, hidle⟩ := hbecomes.of_stopped
      (h.signal origin horigin (hbecomes.same.1.trans hsession))
    exact ⟨hstopped, fun hfree => hidle hfree ▸ horigin⟩
  · exact absurd (hsession.symm.trans hnew) (Nat.ne_of_lt h.started)

/-- Nothing brings back a pair of loops that has been told to stop, whatever else it is told. -/
theorem step (h : run.Stopped session called) (hstep : Step run fired early late told next) :
    next.Stopped session called where
  started := Nat.lt_of_lt_of_le h.started hstep.sessions_le
  signal loop hloop hsession := (h.exists_origin hstep hloop hsession).1
  idle loop hloop hsession hfree := by
    have hmem := (h.exists_origin hstep hloop hsession).2 hfree
    obtain ⟨hdeadline, hnow, horigin⟩ := h.idle loop hmem hsession hfree
    -- time does not pass the deadline of a loop that is due
    have hlast := hstep.now_le_max hmem hfree
    have hfirst := hstep.now_le
    exact ⟨Nat.le_trans hdeadline hfirst, by omega, horigin⟩

theorem play (h : run.Stopped session called) (moves : List (Move ρ)) :
    (run.play moves).Stopped session called := by
  induction moves generalizing run with
  | nil => exact h
  | cons move moves ih => exact ih (h.step (run.step_move move))

/-- A loop of the pair begins its task only if it was due when the pair was told to stop, and at no
later time. -/
theorem of_begins (h : run.Stopped session called) {move : Move ρ}
    (hbegins : run.begins session task move) :
    run.now = called.now ∧ ∃ origin ∈ called.loops, origin.session = session ∧
      origin.task = task ∧ origin.isDue called.now ∧ origin.fresh = false := by
  obtain ⟨loop, hfired, hsession, rfl⟩ := begins_iff.1 hbegins
  obtain ⟨_, -, hplace, hdue⟩ := fired?_eq_some_iff.1 hfired
  have hfree : loop.busy = false := by simpa using (Bool.and_eq_true_iff.1 hdue).1
  exact (h.idle loop (List.mem_of_getElem? hplace) hsession hfree).2

theorem spent_step (h : run.Stopped session called) (hspent : run.Spent session task)
    (hstep : Step run fired early late told next) : next.Spent session task := by
  intro loop hloop hsession htask
  by_contra hidle
  have hfree : loop.busy = false := by simpa using hidle
  have hmem := (h.exists_origin hstep hloop hsession).2 hfree
  exact hidle (hspent loop hmem hsession htask)

/-- No loop with this task begins it any more. -/
theorem beginnings_eq_nil (h : run.Stopped session called) (hspent : run.Spent session task)
    (moves : List (Move ρ)) : run.beginnings session task moves = [] := by
  induction moves generalizing run with
  | nil => rfl
  | cons move moves ih =>
    have hstep := run.step_move move
    have hfirst : run.beginnings session task [move] = [] := by
      rw [beginnings_singleton, hspent.begins_eq_false, if_neg Bool.false_ne_true]
    rw [← List.singleton_append, beginnings_append, hfirst]
    exact ih (h.step hstep) (h.spent_step hspent hstep)

/-- Each loop of the pair begins its task once more at most. -/
theorem length_beginnings_le_one (h : run.Stopped session called)
    (hcourse : run.InCourse begun ended) (moves : List (Move ρ)) :
    (run.beginnings session task moves).length ≤ 1 := by
  induction moves generalizing run begun ended with
  | nil => exact Nat.zero_le 1
  | cons move moves ih =>
    have hstep := run.step_move move
    rw [← List.singleton_append, beginnings_append, beginnings_singleton]
    cases hbegins : run.begins session task move with
    | false => exact ih (h.step hstep) (hcourse.step hstep)
    | true =>
      obtain ⟨loop, hfired, rfl, rfl⟩ := begins_iff.1 hbegins
      obtain ⟨_, -, hplace, -⟩ := fired?_eq_some_iff.1 hfired
      have hstopped := h.signal loop (List.mem_of_getElem? hplace) rfl
      have hspent : (run.move move).Spent loop.session loop.task := by
        rw [hfired] at hstep
        exact hstep.spent hcourse.orderly hstopped
      have hnone : (run.play [move]).beginnings loop.session loop.task moves = [] :=
        (h.step (run.step_move move)).beginnings_eq_nil hspent moves
      rw [hnone]
      exact Nat.le_refl 1

/-- The pair has one tick at most under way, or begins one. -/
theorem length_own_add_le_one (h : run.Stopped session called) (hcourse : run.InCourse begun ended)
    (moves : List (Move ρ)) :
    (run.own session).length + (ticksOf session (run.begunTicks moves)).length ≤ 1 := by
  rw [ticksOf_begunTicks, List.length_map]
  rcases hcourse.own_eq session with hown | ⟨tick, hown⟩
  · rw [hown, List.length_nil, Nat.zero_add]
    exact h.length_beginnings_le_one hcourse moves
  · obtain ⟨htick, howner⟩ := mem_own.1 (hown ▸ List.mem_singleton_self tick)
    have hticket : (tick.number, some session) ∈ run.tickets :=
      List.mem_map.2 ⟨tick, htick, Prod.ext rfl howner⟩
    obtain ⟨waiting, hwaiting, hsame, hscrape, hbusy⟩ :=
      hcourse.orderly.awaited tick.number session hticket
    have hspent : run.Spent session .scrape := by
      intro loop hloop hsession htask
      obtain rfl := hcourse.orderly.eq_of_mem hloop hwaiting (hsession.trans hsame.symm)
        (htask.trans hscrape.symm)
      exact hbusy
    rw [hown, h.beginnings_eq_nil hspent moves]
    exact Nat.le_refl 1

/-- Once nothing of the pair is under way and none of its loops is due, the pair is gone. -/
theorem isAtWork_eq_false_iff (h : run.Stopped session called)
    (horderly : run.Orderly begun ended) :
    run.isAtWork session = false ↔ run.own session = [] ∧ session ∉ run.rescanners ∧
      ∀ loop ∈ run.loops, loop.session = session → loop.isDue run.now = false := by
  rw [isAtWork_eq_false]
  refine ⟨fun hnone => ⟨?_, fun hrescan => ?_, fun loop hloop hsession => ?_⟩,
    fun ⟨hown, hrescans, hdue⟩ loop hloop hsession => ?_⟩
  · exact horderly.own_eq_nil fun loop hloop hsession => absurd hsession (hnone loop hloop)
  · obtain ⟨loop, hloop, hsession, -⟩ := horderly.rescanned session hrescan
    exact hnone loop hloop hsession
  · exact absurd hsession (hnone loop hloop)
  · cases hbusy : loop.busy with
    | true =>
      cases htask : loop.task with
      | scrape =>
        obtain ⟨tick, htick⟩ := horderly.exists_own_of_busy hloop htask hbusy
        rw [hsession, hown] at htick
        exact absurd htick List.not_mem_nil
      | refresh =>
        have hawaited := horderly.waits loop hloop hbusy
        rw [Awaited, htask, hsession] at hawaited
        exact hrescans hawaited
    | false =>
      obtain ⟨hdeadline, -⟩ := h.idle loop hloop hsession hbusy
      have hnot := hdue loop hloop hsession
      simp [Loop.isDue, hbusy, hdeadline] at hnot

end Stopped

/-! ## A pair whose loops all wait -/

/-- The pair of loops was started, and nothing is left of it but loops that wait for their tasks, of
which `kept` holds. -/
structure Lingers (session : Nat) (kept : Loop → Prop) (run : Run ρ) : Prop where
  started : session < run.sessions
  waits : ∀ loop ∈ run.loops, loop.session = session → loop.busy ∧ kept loop

/-- Whatever loop of the pair has its task ended, where this tick may end or a refresh, ends with
it. -/
def EndsWith (session : Nat) (late : Option TickAt) (run : Run ρ) : Prop :=
  ∀ loop ∈ run.loops, loop.session = session →
    (loop.task = .scrape → ∃ tick, late = some tick ∧ tick.session = some session) →
      loop.free run.now = none

namespace Lingers

variable {kept : Loop → Prop}

/-- A loop that is due is none of a pair whose loops all wait for their tasks. -/
theorem ne_of_isDue (h : run.Lingers session kept) {loop : Loop} (hloop : loop ∈ run.loops)
    (hdue : loop.isDue run.now) : loop.session ≠ session := by
  intro hsession
  have hbusy := (h.waits loop hloop hsession).1
  simp [Loop.isDue, hbusy] at hdue

/-- Such a pair stays one as long as each of its loops ends with its task. -/
theorem step (h : run.Lingers session kept) (hstep : Step run fired early late told next)
    (hends : run.EndsWith session late)
    (hkept : ∀ signal, told = some (session, signal) → ∀ loop, kept loop →
      kept (loop.note signal)) : next.Lingers session kept where
  started := Nat.lt_of_lt_of_le h.started hstep.sessions_le
  waits loop hloop hsession := by
    rcases hstep.origin hloop with ⟨origin, horigin, hbecomes⟩ | ⟨hnew, -⟩
    · have howned := hbecomes.same.1.trans hsession
      obtain ⟨hbusy, hheld⟩ := h.waits origin horigin howned
      have hidle : origin.isDue run.now = false := by simp [Loop.isDue, hbusy]
      cases hbecomes with
      | keep => exact ⟨hbusy, hheld⟩
      | begin _ hdue | skip _ hdue => exact absurd (hidle.symm.trans hdue) Bool.false_ne_true
      | free _ hlate hfree =>
        have hnone := hends origin horigin howned (howned ▸ hlate)
        exact absurd (hfree.symm.trans hnone) (Option.some_ne_none _)
      | hear htold htell =>
        obtain ⟨rfl, -⟩ := Loop.tell_eq_some htell
        exact ⟨hbusy, hkept _ (howned ▸ htold) origin hheld⟩
    · exact absurd (hsession.symm.trans hnew) (Nat.ne_of_lt h.started)

/-- A pair that has been told to stop stays so. -/
theorem step_stopped (h : run.Lingers session (·.signal = .stopped))
    (hstep : Step run fired early late told next) :
    next.Lingers session (·.signal = .stopped) := by
  refine h.step hstep (fun loop hloop hsession _ => ?_) fun signal _ loop hstopped => ?_
  · simp [Loop.free, (h.waits loop hloop hsession).2]
  · exact if_pos hstopped

theorem play_stopped (h : run.Lingers session (·.signal = .stopped)) (moves : List (Move ρ)) :
    (run.play moves).Lingers session (·.signal = .stopped) := by
  induction moves generalizing run with
  | nil => exact h
  | cons move moves ih => exact ih (h.step_stopped (run.step_move move))

theorem spent (h : run.Lingers session kept) : run.Spent session task :=
  fun loop hloop hsession _ => (h.waits loop hloop hsession).1

/-- The pair begins no tick. -/
theorem begunTicks_eq_nil (h : run.Lingers session (·.signal = .stopped)) (moves : List (Move ρ)) :
    ticksOf session (run.begunTicks moves) = [] := by
  rw [ticksOf_begunTicks]
  refine List.map_eq_nil_iff.2 (List.filter_eq_nil_iff.2 fun moment hmoment hbegins => ?_)
  obtain ⟨before, -, -, hrun⟩ := exists_play_of_mem_course hmoment
  have hspent : moment.run.Spent session .scrape := hrun ▸ (h.play_stopped before).spent
  exact Bool.false_ne_true ((hspent.begins_eq_false moment.move).symm.trans hbegins)

/-- A pair of which nothing is under way is gone. -/
theorem isAtWork_eq_false (h : run.Lingers session kept) (horderly : run.Orderly begun ended)
    (hrescans : run.rescans = []) (hown : run.own session = []) :
    run.isAtWork session = false := by
  refine Run.isAtWork_eq_false.2 fun loop hloop hsession => ?_
  have hbusy := (h.waits loop hloop hsession).1
  cases htask : loop.task with
  | scrape =>
    obtain ⟨tick, htick⟩ := horderly.exists_own_of_busy hloop htask hbusy
    rw [hsession, hown] at htick
    exact absurd htick List.not_mem_nil
  | refresh =>
    have hfree := horderly.busy_eq_false hrescans hloop htask
    exact Bool.false_ne_true (hfree.symm.trans hbusy)

end Lingers

/-! ## Waiting for the last tick -/

/-- Nothing is waited for once the pair is gone. -/
theorem join_of_gone (h : run.isAtWork session = false) (moments : Nat) :
    run.join session moments = run := by
  cases moments with
  | zero => rfl
  | succ moments => rw [join, h, if_neg Bool.false_ne_true]

theorem ClearUntil.le_endsAt {time : Nat} (h : run.ClearUntil time) {tick : Tick}
    (htick : tick ∈ run.ticks) : time ≤ tick.endsAt run.now := by
  have hnow : run.now ≤ tick.endsAt run.now := Tick.le_endsAt
  rcases List.eq_nil_or_concat tick.pending with hnone | ⟨rest, call, hpending⟩
  · exact Nat.le_trans (h.ticks tick htick hnone) hnow
  · have hcall : call ∈ tick.pending := by simp [hpending]
    have hbound := h.calls tick htick call hcall
    have hends : call.ends ≤ tick.endsAt run.now := Tick.ends_le_endsAt hcall
    omega

/-- Something happens before a tick that is under way is past its end. -/
theorem exists_nextTime?_le {tick : Tick} (htick : tick ∈ run.ticks) :
    ∃ time, run.nextTime? = some time ∧ time ≤ tick.endsAt run.now := by
  cases hnext : run.nextTime? with
  | none =>
    have hlate := (clearUntil_of_nextTime?_none hnext (tick.endsAt run.now + 1)).le_endsAt htick
    exact absurd hlate (Nat.not_succ_le_self _)
  | some time =>
    have hclear : run.ClearUntil time := clearUntil_of_nextTime? fun other hother =>
      Nat.le_of_eq (Option.some.inj (hnext.symm.trans hother))
    exact ⟨time, rfl, hclear.le_endsAt htick⟩

/-- Of a pair whose loops wait for their tasks and that has been told to stop, the tick that is under
way stays so until it is published at its end. -/
theorem InCourse.account_lingers (h : run.InCourse begun ended)
    (hlingers : run.Lingers session (·.signal = .stopped)) (moves : List (Move ρ)) :
    (ticksOf session (run.endedTicks moves)).map TickAt.result ++
        ((run.play moves).own session).map (Tick.prospect run.epoch (run.play moves).now) =
      (run.own session).map (Tick.prospect run.epoch run.now) := by
  have haccount := h.account session moves
  rwa [hlingers.begunTicks_eq_nil moves, List.map_nil, List.append_nil] at haccount

/-- The next moment at which something happens is not after the end of the tick that is under way.
It leaves the tick under way, or is the moment at which the tick ends. -/
theorem InCourse.exists_moment (h : run.InCourse begun ended)
    (hlingers : run.Lingers session (·.signal = .stopped)) {tick : Tick}
    (hown : run.own session = [tick]) :
    ∃ time, run.nextTime? = some time ∧ time ≤ tick.endsAt run.now ∧
      ∃ moves, { run with now := time }.instant = run.play moves ∧
        (((run.play moves).own session = [] ∧ time = tick.endsAt run.now) ∨
          ∃ still, (run.play moves).own session = [still] ∧
            still.endsAt (run.play moves).now = tick.endsAt run.now) := by
  obtain ⟨htick, -⟩ := mem_own.1 (hown ▸ List.mem_singleton_self tick)
  obtain ⟨time, hnext, hends⟩ := exists_nextTime?_le htick
  obtain ⟨moves, -, hplay⟩ :=
    (comesTo_nextTime? hnext).inner.trans (comesTo_instant { run with now := time })
  refine ⟨time, hnext, hends, moves, hplay, ?_⟩
  have hcourse := h.play moves
  have hnow : (run.play moves).now = time := hplay ▸ instant_now _
  have haccount := h.account_lingers hlingers moves
  rw [hown, List.map_singleton] at haccount
  rcases hcourse.own_eq session with hempty | ⟨still, hstill⟩
  · -- the tick has been published, at its end
    rw [hempty, List.map_nil, List.append_nil] at haccount
    obtain ⟨late, hlate, hresult⟩ := List.map_eq_singleton_iff.1 haccount
    have htime : late.time = tick.endsAt run.now :=
      congrArg (fun prospect => prospect.2.1) hresult
    have hpast := hcourse.ledger.past late (List.mem_append_right _
      (mem_ticksOf.1 (hlate ▸ List.mem_singleton_self late)).1)
    exact Or.inl ⟨hempty, by omega⟩
  · rw [hstill, List.map_singleton] at haccount
    have hlast := (List.append_eq_singleton_iff.1 haccount).resolve_right
      fun hnone => absurd hnone.2 (List.cons_ne_nil _ _)
    exact Or.inr ⟨still, hstill, congrArg (fun prospect => prospect.2.1)
      (List.cons.inj hlast.2).1⟩

/-- Waiting for a pair that has been told to stop, and whose loops wait for their tasks, takes until
the end of its tick, and no time if there is none. -/
theorem join_spec {target : Nat} (moments : Nat) (h : run.InCourse begun ended)
    (hconfig : run.config.fault? = none) (hlingers : run.Lingers session (·.signal = .stopped))
    (hrescans : run.rescans = []) (htarget : ∀ tick ∈ run.own session, tick.endsAt run.now ≤ target)
    (hmoments : run.effort target ≤ moments) :
    (run.join session moments).isAtWork session = false ∧
      (run.own session = [] → (run.join session moments).now = run.now) ∧
      ∀ tick ∈ run.own session, (run.join session moments).now = tick.endsAt run.now := by
  -- each moment leaves less to do, as in the passage of time up to the end of the tick
  induction moments generalizing run begun ended with
  | zero =>
    have hown : run.own session = [] := by
      refine List.eq_nil_iff_forall_not_mem.2 fun tick htick => ?_
      have hlater := htarget tick htick
      have hnow : run.now ≤ tick.endsAt run.now := Tick.le_endsAt
      unfold effort at hmoments
      omega
    refine ⟨hlingers.isAtWork_eq_false h.orderly hrescans hown, fun _ => rfl, fun tick htick => ?_⟩
    exact absurd htick (hown ▸ List.not_mem_nil)
  | succ moments ih =>
    rcases h.own_eq session with hown | ⟨tick, hown⟩
    · have hgone := hlingers.isAtWork_eq_false h.orderly hrescans hown
      rw [join_of_gone hgone, hown]
      exact ⟨hgone, fun _ => rfl, nofun⟩
    · have htick := htarget tick (hown ▸ List.mem_singleton_self tick)
      obtain ⟨time, hnext, hends, moves, hplay, hafter⟩ := h.exists_moment hlingers hown
      have hwork : run.isAtWork session := by
        refine Bool.eq_true_of_not_eq_false fun hgone => ?_
        have hnone := h.orderly.own_eq_nil fun loop hloop hsession =>
          absurd hsession (Run.isAtWork_eq_false.1 hgone loop hloop)
        exact absurd (hown.symm.trans hnone) (List.cons_ne_nil _ _)
      have hjoin : run.join session (moments + 1) = (run.play moves).join session moments := by
        rw [join, if_pos hwork, hnext, ← hplay]
      have hnow : (run.play moves).now = time := hplay ▸ instant_now _
      have hless := effort_instant_lt hnext (Nat.le_trans hends htick) (h.interval_pos hconfig)
      rw [hplay] at hless
      have hlater : ∀ still ∈ (run.play moves).own session,
          still.endsAt (run.play moves).now = tick.endsAt run.now := by
        rcases hafter with ⟨hempty, -⟩ | ⟨still, hstill, hsame⟩
        · exact hempty ▸ nofun
        · exact hstill ▸ List.forall_mem_singleton.2 hsame
      obtain ⟨hgone, hnone, hsome⟩ := ih (h.play moves)
        ((run.config_epoch_play moves).1 ▸ hconfig) (hlingers.play_stopped moves)
        (hplay ▸ rescans_answerAll _) (fun still hstill => hlater still hstill ▸ htick) (by omega)
      rw [hjoin, hown]
      refine ⟨hgone, nofun, List.forall_mem_singleton.2 ?_⟩
      rcases hafter with ⟨hempty, htime⟩ | ⟨still, hstill, hsame⟩
      · rw [hnone hempty, hnow, htime]
      · rw [hsome still (hstill ▸ List.mem_singleton_self still), hsame]

/-! ## Shutdown -/

/-- What is left of a loop that has proceeded waits for its task if it has been told to stop. -/
theorem busy_of_left {loop kept : Loop} (h : run.left loop = some kept) :
    kept.session = loop.session ∧ (loop.signal = .stopped → kept.busy) := by
  unfold left fired at h
  split at h
  · split at h
    · obtain ⟨rfl, hsignal⟩ := Loop.free_eq_some h
      have hbegun : (loop.begun run.now).signal = loop.signal := rfl
      exact ⟨rfl, fun hstopped => by simp [hbegun, hstopped] at hsignal⟩
    · obtain rfl := Option.some.inj h
      exact ⟨rfl, fun _ => rfl⟩
  · exact absurd h nofun

/-- What is left of the loops that take their turns belongs to their pairs, and waits for its task
if it had been told to stop. -/
theorem mem_foldl_proceed (due : List Loop) {loop : Loop}
    (h : loop ∈ (due.foldl proceed run).loops) :
    loop ∈ run.loops ∨ ∃ origin ∈ due, loop.session = origin.session ∧
      (origin.signal = .stopped → loop.busy) := by
  induction due generalizing run with
  | nil => exact Or.inl h
  | cons origin due ih =>
    rcases ih h with hmem | ⟨other, hother, hleft⟩
    · rw [proceed_loops] at hmem
      rcases List.mem_append.1 hmem with hmem | hmem
      · exact Or.inl hmem
      · exact Or.inr ⟨origin, List.mem_cons_self, busy_of_left (Option.mem_toList.1 hmem)⟩
    · exact Or.inr ⟨other, List.mem_cons_of_mem _ hother, hleft⟩

/-- Once the loops that are due have proceeded, those of the pair that are left wait for their
tasks. -/
theorem Stopped.lingers_fireLoops {called : Run ρ} (h : run.Stopped session called) :
    run.fireLoops.Lingers session (·.signal = .stopped) := by
  obtain ⟨moves, -, hplay⟩ := run.comesTo_fireLoops
  have hafter : run.fireLoops.Stopped session called := hplay ▸ h.play moves
  refine ⟨hafter.started, fun loop hloop hsession => ⟨?_, hafter.signal loop hloop hsession⟩⟩
  rcases mem_foldl_proceed _ hloop with hmem | ⟨origin, horigin, howner, hbusy⟩
  · obtain ⟨hmem, hidle⟩ := List.mem_filter.1 hmem
    by_contra hfree
    have hfree : loop.busy = false := by simpa using hfree
    have hdeadline := (h.idle loop hmem hsession hfree).1
    simp [Loop.isDue, hfree, hdeadline] at hidle
  · exact hbusy (h.signal origin (List.mem_filter.1 horigin).1 (howner.symm.trans hsession))

/-- The pair once its loops that are due have proceeded and the registry has answered. -/
theorem Stopped.exists_instant {called : Run ρ} (h : run.Stopped session called) :
    ∃ moves : List (Move ρ), (∀ move ∈ moves, move.isInner) ∧ run.instant = run.play moves ∧
      run.instant.Lingers session (·.signal = .stopped) := by
  obtain ⟨moves, hmoves, hplay⟩ := run.comesTo_instant
  refine ⟨moves, hmoves, hplay, ?_⟩
  have hsettled : run.settleCalls.Stopped session called := h.step (run.step_move .settle)
  obtain ⟨rest, -, hrest⟩ := (comesTo_endTicks run.settleCalls.fireLoops).inner.trans
    (comesTo_answers run.stir.answersLeft run.stir)
  have hlast : run.instant = run.settleCalls.fireLoops.play rest := hrest
  rw [hlast]
  exact hsettled.lingers_fireLoops.play_stopped rest

theorem le_ends_of_begun {moves : List (Move ρ)} {first : TickAt}
    (h : first ∈ run.begunTicks moves) : run.now ≤ first.ends := by
  obtain ⟨moment, hmoment, hbegun⟩ := mem_begunTicks.1 h
  obtain ⟨before, -, -, hrun⟩ := exists_play_of_mem_course hmoment
  obtain ⟨owner, rfl, -⟩ := begun?_spec hbegun
  have hnow : run.now ≤ moment.run.now := hrun ▸ run.now_le_play before
  exact Nat.le_trans hnow Tick.le_endsAt

theorem InCourse.endsAt_le (h : run.InCourse begun ended) {tick : Tick} (htick : tick ∈ run.ticks) :
    tick.endsAt run.now ≤ run.now + run.config.callTimeout.millisUp := by
  obtain ⟨early, hearly, hcontinues⟩ := h.ledger.underway tick htick
  have hbounded := h.bounded early hearly
  have hpast := h.past early hearly
  rw [hcontinues.ends]
  omega

/-- Of a pair that has one tick at most, the end of the tick that is under way after some moves that
take no time is the end of whatever tick was under way before or has begun since. -/
theorem InCourse.eq_of_prospects (h : run.InCourse begun ended) {moves : List (Move ρ)} {time : Nat}
    (hone : (run.own session).length + (ticksOf session (run.begunTicks moves)).length ≤ 1)
    (hnow : (run.play moves).now = run.now)
    (hnone : (run.play moves).own session = [] → time = run.now)
    (hsome : ∀ tick ∈ (run.play moves).own session, time = tick.endsAt (run.play moves).now) :
    (run.own session = [] → ticksOf session (run.begunTicks moves) = [] → time = run.now) ∧
      (∀ tick ∈ run.own session, time = tick.endsAt run.now) ∧
      ∀ early ∈ ticksOf session (run.begunTicks moves), time = early.ends := by
  obtain ⟨prospects, hprospects⟩ : ∃ prospects, prospects =
      (run.own session).map (Tick.prospect run.epoch run.now) ++
        (ticksOf session (run.begunTicks moves)).map (TickAt.prospect run.epoch) := ⟨_, rfl⟩
  have hlength : prospects.length ≤ 1 := by
    rw [hprospects, List.length_append, List.length_map, List.length_map]
    exact hone
  have haccount := h.account session moves
  rw [← hprospects] at haccount
  have hends : ∀ prospect ∈ prospects, run.now ≤ prospect.2.1 → time = prospect.2.1 := by
    intro prospect hmem hlater
    rcases (h.play moves).own_eq session with hempty | ⟨tick, htick⟩
    · -- it has been published, and no time has passed
      rw [hempty, List.map_nil, List.append_nil] at haccount
      obtain ⟨late, hlate, rfl⟩ := List.mem_map.1 (haccount ▸ hmem)
      have hpast := (h.play moves).ledger.past late
        (List.mem_append_right _ (mem_ticksOf.1 hlate).1)
      exact (hnone hempty).trans (Nat.le_antisymm hlater (hnow ▸ hpast))
    · rw [htick, List.map_singleton] at haccount
      have hpublished : (ticksOf session (run.endedTicks moves)).map TickAt.result = [] := by
        have hsum := congrArg List.length haccount
        rw [List.length_append, List.length_singleton] at hsum
        exact List.length_eq_zero_iff.1 (by omega)
      rw [← haccount, hpublished, List.nil_append] at hmem
      rw [List.mem_singleton.1 hmem]
      exact hsome tick (htick ▸ List.mem_singleton_self tick)
  refine ⟨fun hown hbegun => hnone ?_, fun tick htick => ?_, fun early hearly => ?_⟩
  · rw [hprospects, hown, hbegun] at haccount
    exact List.map_eq_nil_iff.1 (List.append_eq_nil_iff.1 haccount).2
  · exact hends _ (hprospects ▸ List.mem_append_left _ (List.mem_map_of_mem htick)) Tick.le_endsAt
  · exact hends _ (hprospects ▸ List.mem_append_right _ (List.mem_map_of_mem hearly))
      (le_ends_of_begun (mem_ticksOf.1 hearly).1)

/-- A shutdown of a pair returns when the pair is gone. That is at the end of the tick that was under
way, or that the pair has begun since, and at once if there is none. -/
theorem InCourse.shutdown_spec (h : run.InCourse begun ended) (hconfig : run.config.fault? = none)
    (hstarted : session < run.sessions) :
    let stopped := run.move (.stop session)
    let shut := { run with handle := some session }.shutdown
    shut.isAtWork session = false ∧
      ∃ moves : List (Move ρ), (∀ move ∈ moves, move.isInner) ∧
        shut = stopped.play (.letGo :: moves) ∧
        (run.own session = [] → ticksOf session (stopped.begunTicks (.letGo :: moves)) = [] →
          shut.now = run.now) ∧
        (∀ tick ∈ run.own session, shut.now = tick.endsAt run.now) ∧
        ∀ early ∈ ticksOf session (stopped.begunTicks (.letGo :: moves)), shut.now = early.ends := by
  intro stopped shut
  have hstopped : stopped.Stopped session run := .of_tell hstarted
  obtain ⟨first, hfirst, hinstant, hlingers⟩ :=
    (hstopped.step (step_move stopped .letGo)).exists_instant
  -- the pair once its loops that were due have proceeded
  obtain ⟨between, hbetween⟩ : ∃ between, between = stopped.play (.letGo :: first) := ⟨_, rfl⟩
  have hinstant : (stopped.move .letGo).instant = between := hinstant.trans hbetween.symm
  have hnow : between.now = run.now := hinstant ▸ instant_now _
  have hstop : stopped.InCourse _ _ := h.play [.stop session]
  have hcourse : between.InCourse _ _ := hbetween ▸ hstop.play (.letGo :: first)
  have hfault : between.config.fault? = none :=
    hbetween ▸ (run.config_epoch_play (.stop session :: .letGo :: first)).1 ▸ hconfig
  rw [hinstant] at hlingers
  obtain ⟨hgone, hnone, hsome⟩ := join_spec
    (between.momentsUntil (between.now + between.config.callTimeout.millisUp)) hcourse hfault hlingers
    (hinstant ▸ rescans_answerAll _) (fun tick htick => hcourse.endsAt_le (mem_own.1 htick).1)
    (between.effort_le (Nat.le_add_right _ _))
  obtain ⟨second, hsecond, hjoin⟩ := comesTo_join session
    (between.momentsUntil (between.now + between.config.callTimeout.millisUp)) between
  have hshut : between.join session
      (between.momentsUntil (between.now + between.config.callTimeout.millisUp)) = shut :=
    hinstant ▸ rfl
  rw [hshut] at hgone hnone hsome hjoin
  have hbegun : ticksOf session (stopped.begunTicks (.letGo :: (first ++ second))) =
      ticksOf session (stopped.begunTicks (.letGo :: first)) := by
    rw [← List.cons_append, begunTicks_append, ticksOf, List.filter_append, ← ticksOf, ← ticksOf,
      ← hbetween, hlingers.begunTicks_eq_nil, List.append_nil]
  refine ⟨hgone, first ++ second, List.forall_mem_append.2 ⟨hfirst, hsecond⟩, ?_, ?_⟩
  · rw [hjoin, hbetween, ← play_append, List.cons_append]
  · rw [hbegun]
    exact hstop.eq_of_prospects (hstopped.length_own_add_le_one hstop _) (hbetween ▸ hnow)
      (fun hempty => (hnone (hbetween ▸ hempty)).trans hnow)
      fun tick htick => hbetween ▸ hsome tick (hbetween ▸ htick)

/-- A pair of loops is told to stop at any moment of a course. Each of its loops begins its task once
more at most, and only at that very moment, if it was due then and had not only been started. The tick
that was under way, or was so begun, is under way until its end and is published then, once and with
all that it comes to ; there is one such tick at most. The pair is gone once nothing of it is under way
and no loop of it is due, and it changes neither the directory nor what is published from then on, so
that without any other pair all changes are made by hand. A shutdown returns when the pair is gone :
that is at the end of the tick, and at once if there is none. -/
theorem stop_play (run : Run ρ) (hconfig : run.config.fault? = none) (before : List (Move ρ))
    (session : Nat) (hstarted : session < (run.fresh.play before).sessions) :
    let opened := run.fresh
    let called := opened.play before
    let stopped := called.move (.stop session)
    let underway := called.own session
    let shut := { called with handle := some session }.shutdown
    (∀ tick ∈ underway, ∃ early ∈ opened.begunTicks before,
        Continues run.epoch called.now early tick) ∧
      (∀ after : List (Move ρ),
        let later := stopped.play after
        let ticks := underway.map (Tick.prospect run.epoch called.now) ++
          (ticksOf session (stopped.begunTicks after)).map (TickAt.prospect run.epoch)
        let published := (ticksOf session (stopped.endedTicks after)).map TickAt.result
        (∀ task, (stopped.beginnings session task after).length ≤ 1 ∧
            ∀ moment ∈ stopped.beginnings session task after, moment.run.now = called.now ∧
              ∃ loop ∈ called.loops, loop.session = session ∧ loop.task = task ∧
                loop.isDue called.now ∧ loop.fresh = false) ∧
          ticks.length ≤ 1 ∧
          ((published = [] ∧ (∀ tick ∈ ticks, later.now ≤ tick.2.1) ∧
              (later.own session).map (Tick.prospect run.epoch later.now) = ticks) ∨
            later.own session = [] ∧ published = ticks) ∧
          (later.isAtWork session = false ↔
            later.own session = [] ∧ session ∉ later.rescanners ∧
              ∀ loop ∈ later.loops, loop.session = session → loop.isDue later.now = false) ∧
          (later.isAtWork session = false → ∀ more : List (Move ρ),
            (later.play more).isAtWork session = false ∧
              later.ChangesOnlyBy (· ≠ some session) more ∧
              ((∀ loop ∈ called.loops, loop.session = session) →
                (∀ move ∈ after ++ more, move ≠ .start) →
                  later.ChangesOnlyBy (· = none) more))) ∧
      shut.isAtWork session = false ∧
      ∃ moves : List (Move ρ), (∀ move ∈ moves, move.isInner) ∧
        shut = stopped.play (.letGo :: moves) ∧
        (underway = [] → ticksOf session (stopped.begunTicks (.letGo :: moves)) = [] →
          shut.now = called.now) ∧
        (∀ tick ∈ underway, shut.now = tick.endsAt called.now) ∧
        ∀ early ∈ ticksOf session (stopped.begunTicks (.letGo :: moves)), shut.now = early.ends := by
  intro opened called stopped underway shut
  have hcourse : called.InCourse (opened.begunTicks before) (opened.endedTicks before) :=
    run.inCourse_play before
  have hconfig' : called.config.fault? = none := (opened.config_epoch_play before).1 ▸ hconfig
  have hepoch : called.epoch = run.epoch := (opened.config_epoch_play before).2
  have hepoch' : stopped.epoch = run.epoch := hepoch
  have hstop : stopped.InCourse _ _ := hcourse.play [.stop session]
  have hstopped : stopped.Stopped session called := .of_tell hstarted
  refine ⟨fun tick htick => ?_, fun after => ?_, hcourse.shutdown_spec hconfig' hstarted⟩
  · exact hepoch ▸ hcourse.ledger.underway tick (mem_own.1 htick).1
  · intro later ticks published
    have hlater : later.InCourse _ _ := hstop.play after
    have hlast : later.Stopped session called := hstopped.play after
    have hone : ticks.length ≤ 1 := by
      rw [List.length_append, List.length_map, List.length_map]
      exact hstopped.length_own_add_le_one hstop after
    refine ⟨fun task => ⟨hstopped.length_beginnings_le_one hstop after, fun moment hmoment => ?_⟩,
      hone, hepoch' ▸ hstop.underway_or_published session after (hepoch' ▸ rfl) hone, hlast.isAtWork_eq_false_iff hlater.orderly, fun hgone more =>
        ⟨isAtWork_play hlast.started hgone more,
          hlater.changesOnlyBy_others hlast.started hgone more, fun hloops hmoves => ?_⟩⟩
    · obtain ⟨hmem, hbegins⟩ := List.mem_filter.1 hmoment
      obtain ⟨first, -, -, hrun⟩ := exists_play_of_mem_course hmem
      have hthen : moment.run.Stopped session called := hrun ▸ hstopped.play first
      exact hthen.of_begins hbegins
    · refine hlater.changesOnlyBy_hand (List.eq_nil_iff_forall_not_mem.2 fun loop hloop => ?_)
        fun move hmove => hmoves move (List.mem_append_right _ hmove)
      have hafter : ∀ move ∈ .stop session :: after, move ≠ .start :=
        List.forall_mem_cons.2 ⟨nofun, fun move hmove => hmoves move (List.mem_append_left _ hmove)⟩
      have hplay : loop ∈ (called.play (.stop session :: after)).loops := hloop
      obtain ⟨origin, horigin, hsame⟩ := exists_loop_of_play hafter hplay
      exact isAtWork_eq_false.1 hgone loop hloop (hsame.symm.trans (hloops origin horigin))

/-- A shutdown while the only node takes a second and a half to answer the first tick. -/
theorem stop_slowCollector :
    slowCollector.config.fault? = none ∧
      0 < (slowCollector.fresh.play [.start, .fire 0]).sessions ∧
      { slowCollector.fresh.play [.start, .fire 0] with handle := some 0 }.shutdown.now = 1500 ∧
      { slowCollector.fresh.play [.start, .fire 0] with handle := some 0 }.shutdown.isAtWork 0 =
        false := by
  have hstarted : 0 < (slowCollector.fresh.play [.start, .fire 0]).sessions := by decide +kernel
  obtain ⟨-, -, hgone, _, -, -, -, hends, -⟩ :=
    slowCollector.stop_play rfl [.start, .fire 0] 0 hstarted
  have hunderway : ((slowCollector.fresh.play [.start, .fire 0]).own 0).map
      (·.endsAt (slowCollector.fresh.play [.start, .fire 0]).now) = [1500] := by decide +kernel
  obtain ⟨tick, htick, hend⟩ := List.map_eq_singleton_iff.1 hunderway
  exact ⟨rfl, hstarted, (hends tick (htick ▸ List.mem_singleton_self tick)).trans hend, hgone⟩

/-- A pair is told to stop at the moment at which both its loops are due, a minute after it was
started. Both may begin their tasks once more : the service that was registered in this minute comes
into the directory, and a tick calls its node. -/
theorem stop_atDeadline :
    let node : Node := { id := "billing-1", address := "10.0.0.2:9000" }
    let service : Service :=
      { name := "billing", version := "v1", nodes := [node.withProtocol "mucp"] }
    let before : List (Move MemoryRegistry) :=
      [.start, .fire 0, .wait 1500, .settle, .finish 0, .changeRegistry (·.register service),
        .wait 58500]
    let stopped := (slowCollector.fresh.play before).move (.stop 0)
    let after : List (Move MemoryRegistry) := [.fire 0, .fire 0]
    let later := stopped.play after
    (stopped.beginnings 0 .refresh after).map (·.run.now) = [60000] ∧
      (stopped.beginnings 0 .scrape after).map (·.run.now) = [60000] ∧
      stopped.directory.services.map (·.name) = ["orders"] ∧
      later.directory.services.map (·.name) = ["billing", "orders"] ∧
      (later.callsOf 1).map Prod.snd = ["10.0.0.2:9000", "10.0.0.1:9000"] := by
  decide +kernel

end Vitals.Run
