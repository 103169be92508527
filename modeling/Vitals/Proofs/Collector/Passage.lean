import Mathlib.Algebra.Order.BigOperators.Group.List
import Mathlib.Tactic.Ring
import Vitals.Proofs.Collector.Pace
import Vitals.Proofs.Directory

/-!
# The passage of time

What happens at a moment is a course of moves of the collector's own and of answers
(`Run.comesTo_instant`), and the moments at which something happens before a given time are no more
than `Run.sleepUntil` allows for : each leaves less to do (`Run.effort_instant_lt`), where a loop may
be due once in a millisecond and as often again as it is late, and each time its tick leaves an end
to be noted. So a collector that sleeps comes to the time that it is to sleep until, and has left
nothing undone (`Run.sleepUntil_spec`).

Time passes as well if the registry answers nothing (`Run.exists_comesTo_now`), and no refresh is
under way once it has answered all that it was asked (`Run.rescans_answerAll`).
-/

set_option linter.unusedSectionVars false

namespace Vitals.Run

variable {ρ : Type} [Discovery ρ] {run next : Run ρ} {begun ended : List TickAt}

/-! ## What a collector comes to -/

/-- The collector comes to be `later` through moves of one kind. -/
def ComesTo (run : Run ρ) (kind : Move ρ → Bool) (later : Run ρ) : Prop :=
  ∃ moves : List (Move ρ), (∀ move ∈ moves, kind move) ∧ later = run.play moves

namespace ComesTo

variable {kind : Move ρ → Bool}

theorem refl (run : Run ρ) (kind : Move ρ → Bool) : run.ComesTo kind run := ⟨[], nofun, rfl⟩

theorem single (run : Run ρ) {move : Move ρ} (h : kind move) : run.ComesTo kind (run.move move) :=
  ⟨[move], List.forall_mem_singleton.2 h, rfl⟩

theorem trans {run next last : Run ρ} (h : run.ComesTo kind next) (hlast : next.ComesTo kind last) :
    run.ComesTo kind last := by
  obtain ⟨moves, hmoves, rfl⟩ := h
  obtain ⟨more, hmore, rfl⟩ := hlast
  exact ⟨moves ++ more, List.forall_mem_append.2 ⟨hmoves, hmore⟩, (run.play_append moves more).symm⟩

theorem isInner_of_isOwn {move : Move ρ} (h : move.isOwn) : move.isInner := by
  cases move with
  | answer => rfl
  | _ => exact h

theorem inner (h : run.ComesTo Move.isOwn next) : run.ComesTo Move.isInner next := by
  obtain ⟨moves, hmoves, rfl⟩ := h
  exact ⟨moves, fun move hmove => isInner_of_isOwn (hmoves move hmove), rfl⟩

end ComesTo

/-! ### Loops that are due -/

/-- What is left of a loop that is due once it has begun its task. -/
def fired (run : Run ρ) (loop : Loop) : Option Loop :=
  if loop.task = .refresh ∧ Discovery.prompt ρ then (loop.begun run.now).free run.now
  else some (loop.begun run.now)

/-- What is left of a loop that is due once it has proceeded. -/
def left (run : Run ρ) (loop : Loop) : Option Loop :=
  if loop.signal = .none ∨ run.goesOn then run.fired loop else none

/-- What a loop does does not depend on the others. -/
theorem fire_eq (run : Run ρ) (loop : Loop) (loops : List Loop) :
    { run with loops }.fire loop =
      { run.fire loop with loops := loops ++ (run.fired loop).toList } := by
  cases htask : loop.task with
  | scrape =>
    have hfired : run.fired loop = some (loop.begun run.now) := by simp [fired, htask]
    rw [fire_scrape_eq _ htask, fire_scrape_eq _ htask, hfired, beginTick_eq, beginTick_eq]
    rfl
  | refresh =>
    cases hprompt : Discovery.prompt ρ with
    | true =>
      have hfired : run.fired loop = (loop.begun run.now).free run.now := by
        simp [fired, htask, hprompt]
      rw [hfired]
      unfold fire
      simp only [htask, hprompt, if_true, refreshNow, warn_eq, note]
      split <;> rfl
    | false =>
      have hfired : run.fired loop = some (loop.begun run.now) := by simp [fired, hprompt]
      rw [fire_rescan_eq _ hprompt htask, fire_rescan_eq _ hprompt htask, hfired]
      rfl

theorem proceed_eq (run : Run ρ) (loop : Loop) (loops : List Loop) :
    { run with loops }.proceed loop =
      { run.proceed loop with loops := loops ++ (run.left loop).toList } := by
  unfold proceed left
  split
  · exact run.fire_eq loop loops
  · rw [Option.toList_none, List.append_nil]

theorem proceed_loops (run : Run ρ) (loop : Loop) :
    (run.proceed loop).loops = run.loops ++ (run.left loop).toList :=
  congrArg Run.loops (run.proceed_eq loop run.loops)

theorem fire_now (run : Run ρ) (loop : Loop) : (run.fire loop).now = run.now := by
  cases htask : loop.task with
  | scrape => rw [fire_scrape_eq run htask, beginTick_eq]
  | refresh =>
    cases hprompt : Discovery.prompt ρ with
    | true =>
      obtain ⟨log, hlog⟩ := fire_refresh_eq run hprompt htask
      rw [hlog]
    | false => rw [fire_rescan_eq run hprompt htask]

theorem proceed_now (run : Run ρ) (loop : Loop) : (run.proceed loop).now = run.now := by
  unfold proceed
  split
  · exact run.fire_now loop
  · rfl

/-- A loop that is due proceeds by a move. -/
theorem exists_move_proceed {place : Nat} {loop : Loop} (hplace : run.loops[place]? = some loop)
    (hdue : loop.isDue run.now) :
    ∃ move : Move ρ, move.isOwn ∧
      run.move move = { run with loops := run.loops.eraseIdx place }.proceed loop := by
  by_cases hgoes : loop.signal = .none ∨ run.goesOn
  · have hfired : run.fired? (.fire place) = some loop :=
      fired?_eq_some_iff.2 ⟨place, rfl, hplace, hdue⟩
    exact ⟨.fire place, rfl, by simp only [move, hfired, proceed, if_pos hgoes]⟩
  · have hleave : loop.mayLeave run.now :=
      Bool.and_eq_true_iff.2 ⟨hdue, decide_eq_true fun hnone => hgoes (Or.inl hnone)⟩
    have hleaves : run.loops[place]?.filter (·.mayLeave run.now) = some loop :=
      Option.filter_eq_some_iff.2 ⟨hplace, hleave⟩
    exact ⟨.leave place, rfl, by simp only [move, hleaves, proceed, if_neg hgoes]⟩

/-- The loops that are due proceed one after another. -/
theorem comesTo_foldl_proceed (waiting : List Loop) (run : Run ρ) (kept done : List Loop) {now : Nat}
    (hnow : run.now = now) (hloops : run.loops = kept ++ waiting ++ done) :
    run.ComesTo Move.isOwn ((waiting.filter (·.isDue now)).foldl proceed
      { run with loops := kept ++ waiting.filter (!·.isDue now) ++ done }) := by
  -- what is not due keeps its place before those that still wait, what is due goes to the end
  induction waiting generalizing run kept done with
  | nil =>
    have heq : { run with loops := kept ++ [] ++ done } = run := by rw [← hloops]
    simp only [List.filter_nil, List.foldl_nil, heq]
    exact .refl run _
  | cons loop waiting ih =>
    cases hdue : loop.isDue now with
    | false =>
      have hrest := ih run (kept ++ [loop]) done hnow (by simpa using hloops)
      simpa [hdue] using hrest
    | true =>
      have hplace : run.loops[kept.length]? = some loop := by simp [hloops]
      have herase : run.loops.eraseIdx kept.length = kept ++ waiting ++ done := by
        rw [hloops, List.append_assoc, List.eraseIdx_append_of_length_le (Nat.le_refl _)]
        simp
      obtain ⟨move, hown, hmove⟩ := exists_move_proceed hplace (hnow ▸ hdue)
      rw [herase, proceed_eq] at hmove
      have hrest := ih (run.move move) kept (done ++ (run.left loop).toList)
        (by rw [hmove]; exact (run.proceed_now loop).trans hnow) (by rw [hmove]; simp)
      refine ComesTo.trans (.single run hown) ?_
      rw [hmove, ← List.append_assoc _ done] at hrest
      rw [hmove, List.filter_cons_of_pos hdue, List.filter_cons_of_neg (by simp [hdue]),
        List.foldl_cons, run.proceed_eq loop (kept ++ waiting.filter (!·.isDue now) ++ done)]
      exact hrest

/-- That all loops which are due take their turns is a course. -/
theorem comesTo_fireLoops (run : Run ρ) : run.ComesTo Move.isOwn run.fireLoops := by
  have h := comesTo_foldl_proceed run.loops run [] [] rfl (by simp)
  rwa [List.nil_append, List.append_nil] at h

/-! ### Ticks that are over -/

theorem endTick_ticks (run : Run ρ) (tick : Tick) (ticks : List Tick) :
    { run with ticks }.endTick tick = { run.endTick tick with ticks } := by
  unfold endTick
  cases tick.session <;> rfl

/-- The ticks that are over are published one after another. -/
theorem comesTo_foldl_endTick (waiting : List Tick) (run : Run ρ) (kept : List Tick)
    (hticks : run.ticks = kept ++ waiting) :
    run.ComesTo Move.isOwn ((waiting.filter Tick.isOver).foldl endTick
      { run with ticks := kept ++ waiting.filter (!·.isOver) }) := by
  induction waiting generalizing run kept with
  | nil =>
    have heq : { run with ticks := kept ++ [] } = run := by rw [← hticks]
    simp only [List.filter_nil, List.foldl_nil, heq]
    exact .refl run _
  | cons tick waiting ih =>
    cases hover : tick.isOver with
    | false =>
      have hkept := ih run (kept ++ [tick]) (by simpa using hticks)
      simpa [hover] using hkept
    | true =>
      have hended : run.ended? (.finish kept.length) = some ⟨run.now, tick⟩ := by
        simp [ended?, hticks, hover, Option.filter]
      have herase : run.ticks.eraseIdx kept.length = kept ++ waiting := by
        rw [hticks, List.eraseIdx_append_of_length_le (Nat.le_refl _)]
        simp
      have hmove : run.move (.finish kept.length) =
          { run.endTick tick with ticks := kept ++ waiting } := by
        simp only [move, hended, herase, endTick_ticks]
      have hrest := ih (run.move (.finish kept.length)) kept (by rw [hmove])
      have hown : (Move.finish kept.length : Move ρ).isOwn := rfl
      refine ComesTo.trans (.single run hown) ?_
      rw [hmove] at hrest
      rw [hmove, List.filter_cons_of_pos hover, List.filter_cons_of_neg (by simp [hover]),
        List.foldl_cons, run.endTick_ticks tick (kept ++ waiting.filter (!·.isOver))]
      exact hrest

/-- That all ticks which are over are published is a course. -/
theorem comesTo_endTicks (run : Run ρ) : run.ComesTo Move.isOwn run.endTicks := by
  have h := comesTo_foldl_endTick run.ticks run [] rfl
  rwa [List.nil_append] at h

/-! ### Answers of the registry -/

/-- That the registry answers so many times is a course. -/
theorem comesTo_answers (count : Nat) (run : Run ρ) :
    run.ComesTo Move.isInner (answers count run) := by
  induction count generalizing run with
  | zero => exact .refl run _
  | succ count ih =>
    have hinner : (Move.answer 0 : Move ρ).isInner := rfl
    exact (ComesTo.single run hinner).trans (ih (run.answer 0))

/-- All that happens at the present moment without an answer of the registry. -/
def stir (run : Run ρ) : Run ρ := run.settleCalls.fireLoops.endTicks

theorem comesTo_stir (run : Run ρ) : run.ComesTo Move.isOwn run.stir := by
  have hown : (Move.settle : Move ρ).isOwn := rfl
  exact (ComesTo.single run hown).trans
    ((comesTo_fireLoops run.settleCalls).trans (comesTo_endTicks run.settleCalls.fireLoops))

/-- A moment is a course. -/
theorem comesTo_instant (run : Run ρ) : run.ComesTo Move.isInner run.instant :=
  run.comesTo_stir.inner.trans (comesTo_answers _ run.stir)

/-- The first refresh under way takes one answer less after an answer, and the others as many. -/
theorem answersLeft_answer_lt (h : run.rescans ≠ []) : (run.answer 0).answersLeft < run.answersLeft := by
  obtain ⟨rescan, rest, hrescans⟩ := List.exists_cons_of_ne_nil h
  have hrescan : run.rescans[0]? = some rescan := by rw [hrescans]; rfl
  have hpos : 0 < rescan.survey.answersLeft (Discovery.view run.registry) :=
    Survey.answersLeft_pos _
  cases hanswer : rescan.survey.answer (Discovery.view run.registry) with
  | waits survey =>
    obtain ⟨log, hlog⟩ := run.answer_eq_of_waits hrescan hanswer
    have hfewer := Survey.answersLeft_lt hanswer
    rw [hlog, answersLeft, answersLeft, hrescans]
    simp only [List.set_cons_zero, List.foldr_cons]
    omega
  | done result =>
    obtain ⟨log, hlog⟩ := run.answer_eq_of_done hrescan hanswer
    rw [hlog, answersLeft, answersLeft, hrescans]
    simp only [List.eraseIdx_cons_zero, List.foldr_cons]
    omega

theorem answer_registry (run : Run ρ) (place : Nat) :
    (run.answer place).registry = run.registry := by
  cases hrescan : run.rescans[place]? with
  | none => rw [run.answer_eq_of_none hrescan]
  | some rescan =>
    cases hanswer : rescan.survey.answer (Discovery.view run.registry) with
    | waits survey =>
      obtain ⟨log, hlog⟩ := run.answer_eq_of_waits hrescan hanswer
      rw [hlog]
    | done result =>
      obtain ⟨log, hlog⟩ := run.answer_eq_of_done hrescan hanswer
      rw [hlog]

/-- As many answers as are left at most end every refresh. -/
theorem rescans_answers {count : Nat} (h : run.answersLeft ≤ count) :
    (answers count run).rescans = [] := by
  induction count generalizing run with
  | zero =>
    by_contra hsome
    have hless : (run.answer 0).answersLeft < run.answersLeft := answersLeft_answer_lt hsome
    omega
  | succ count ih =>
    by_cases hnone : run.rescans = []
    · have hself : run.answer 0 = run := run.answer_eq_of_none (by rw [hnone]; rfl)
      rw [answers, hself]
      refine ih ?_
      rw [answersLeft, hnone]
      exact Nat.zero_le _
    · have hless := answersLeft_answer_lt hnone
      exact ih (by omega)

/-- No refresh is under way once the registry has answered all that it was asked. -/
theorem rescans_answerAll (run : Run ρ) : run.answerAll.rescans = [] :=
  rescans_answers (Nat.le_refl _)

/-! ## What is left to do -/

/-- Nothing is left to do at the present moment. -/
structure Quiet (run : Run ρ) : Prop where
  ticks : ∀ tick ∈ run.ticks, tick.pending ≠ []
  calls : ∀ tick ∈ run.ticks, ∀ call ∈ tick.pending, run.now < call.ends
  loops : ∀ loop ∈ run.loops, loop.busy = false → run.now < loop.deadline

/-- Nothing is left to do at a moment before the next thing is due. -/
theorem ClearUntil.quiet {target : Nat} (h : run.ClearUntil (target + 1))
    (hnow : run.now ≤ target) : { run with now := target }.Quiet where
  ticks tick htick hnone := by
    have hbound := h.ticks tick htick hnone
    omega
  calls tick htick call hcall := by
    have hbound := h.calls tick htick call hcall
    have hnow' : { run with now := target }.now = target := rfl
    omega
  loops loop hloop hfree := by
    have hbound := h.loops loop hloop hfree
    have hnow' : { run with now := target }.now = target := rfl
    omega

/-- If nothing is left to do at present, whatever happens next is later. -/
theorem Quiet.lt_of_nextTime? (h : run.Quiet) {time : Nat} (hnext : run.nextTime? = some time) :
    run.now < time := by
  rcases due_of_nextTime? hnext with ⟨tick, htick, hover, -⟩ | ⟨tick, htick, call, hcall, rfl⟩ |
    ⟨loop, hloop, hfree, rfl⟩
  · exact absurd hover (h.ticks tick htick)
  · exact Nat.lt_of_lt_of_le (h.calls tick htick call hcall) (Nat.le_max_right _ _)
  · exact Nat.lt_of_lt_of_le (h.loops loop hloop hfree) (Nat.le_max_right _ _)

theorem Quiet.lt_endsAt (h : run.Quiet) {tick : Tick} (htick : tick ∈ run.ticks) :
    run.now < tick.endsAt run.now := by
  obtain ⟨call, hcall⟩ := List.exists_mem_of_ne_nil _ (h.ticks tick htick)
  exact Nat.lt_of_lt_of_le (h.calls tick htick call hcall) (Tick.ends_le_endsAt hcall)

/-- How often a loop with this deadline may still be due until `target` : once in a millisecond at
most, and a few times more if it is late. -/
def lag (target now : Nat) (loop : Loop) : Nat :=
  target + Loop.slack + 1 - max (loop.deadline + Loop.slack) now

/-- How often the loops may still be due until `target`. -/
def dues (target : Nat) (run : Run ρ) : Nat := (run.loops.map (lag target run.now)).sum

/-- Whether a tick or a call has an end to be noted at present. -/
def hasEnds (run : Run ρ) : Bool :=
  run.ticks.any fun tick => tick.isOver || tick.pending.any (·.ends ≤ run.now)

/-- How many moments there may still be until `target` at which something happens. -/
def effort (target : Nat) (run : Run ρ) : Nat :=
  2 * run.dues target + (target + 1 - run.now) + run.hasEnds.toNat

section

variable {target now : Nat} {loop : Loop}

/-- A loop that begins its task is less far behind. -/
theorem lag_begun_lt (hdue : loop.isDue now) (htarget : now ≤ target)
    (hinterval : 0 < loop.interval) :
    lag target now (loop.begun now) < lag target now loop := by
  have hdeadline : loop.deadline ≤ now := by simpa using (Bool.and_eq_true_iff.1 hdue).2
  unfold lag
  simp only [Loop.begun]
  split <;> omega

/-- A loop that is due ends when it proceeds, or will be due once less. -/
theorem lag_left_lt (run : Run ρ) (hdue : loop.isDue run.now) (htarget : run.now ≤ target)
    (hinterval : 0 < loop.interval) :
    ((run.left loop).toList.map (lag target run.now)).sum < lag target run.now loop := by
  have hless := lag_begun_lt hdue htarget hinterval
  cases hleft : run.left loop with
  | none => exact Nat.lt_of_le_of_lt (Nat.zero_le _) hless
  | some kept =>
    have hsame : kept.deadline = (loop.begun run.now).deadline := by
      unfold left fired at hleft
      split at hleft
      · split at hleft
        · rw [(Loop.free_eq_some hleft).1]
        · rw [Option.some.inj hleft]
      · exact absurd hleft nofun
    have hlag : lag target run.now kept = lag target run.now (loop.begun run.now) := by
      rw [lag, lag, hsame]
    rw [Option.toList_some, List.map_singleton, List.sum_singleton, hlag]
    exact hless

/-- Each loop that proceeds will be due once less. -/
theorem dues_foldl_proceed (run : Run ρ) (due : List Loop)
    (hdue : ∀ loop ∈ due, loop.isDue run.now) (htarget : run.now ≤ target)
    (hinterval : ∀ loop ∈ due, 0 < loop.interval) :
    (due.foldl proceed run).dues target + due.length ≤
      run.dues target + (due.map (lag target run.now)).sum := by
  induction due generalizing run with
  | nil => exact Nat.le_refl _
  | cons loop due ih =>
    obtain ⟨hdue, hrest⟩ := List.forall_mem_cons.1 hdue
    obtain ⟨hinterval, hintervals⟩ := List.forall_mem_cons.1 hinterval
    have hnow := run.proceed_now loop
    have hless := run.lag_left_lt hdue htarget hinterval
    have hih := @ih (run.proceed loop) (hnow ▸ hrest) (hnow ▸ htarget) hintervals
    have hdues : (run.proceed loop).dues target = run.dues target +
        ((run.left loop).toList.map (lag target run.now)).sum := by
      rw [dues, proceed_loops, hnow, List.map_append, List.sum_append]
      rfl
    rw [hdues, hnow] at hih
    rw [List.foldl_cons, List.map_cons, List.sum_cons, List.length_cons]
    omega

/-- Each loop that takes its turn has one thing less to do until the target. -/
theorem dues_fireLoops (run : Run ρ) (htarget : run.now ≤ target)
    (hinterval : ∀ loop ∈ run.loops, 0 < loop.interval) :
    run.fireLoops.dues target + (run.loops.filter (·.isDue run.now)).length ≤
      run.dues target := by
  have hperm := (List.filter_append_perm (·.isDue run.now) run.loops).map (lag target run.now)
  have hsum := hperm.sum_nat
  rw [List.map_append, List.sum_append] at hsum
  have hfold := dues_foldl_proceed { run with loops := run.loops.filter (!·.isDue run.now) }
    (run.loops.filter (·.isDue run.now)) (fun loop hloop => (List.mem_filter.1 hloop).2) htarget
    fun loop hloop => hinterval loop (List.mem_filter.1 hloop).1
  exact Nat.le_trans hfold (Nat.le_of_eq ((Nat.add_comm _ _).trans hsum))

/-- A loop that is freed, or ends, will not be due more often. -/
theorem dues_loopsAfter_le (target : Nat) (run : Run ρ) (task : Task) (owner : Option Nat) :
    ((run.loopsAfter task owner).map (lag target run.now)).sum ≤ run.dues target := by
  cases owner with
  | none => exact Nat.le_refl _
  | some session =>
    have hfree : ∀ loops : List Loop,
        ((loops.filterMap fun loop =>
          if loop.session = session ∧ loop.task = task ∧ loop.busy then loop.free run.now
          else some loop).map (lag target run.now)).sum ≤
            (loops.map (lag target run.now)).sum := by
      intro loops
      induction loops with
      | nil => exact Nat.le_refl _
      | cons loop loops ih =>
        rw [List.filterMap_cons, List.map_cons, List.sum_cons]
        split
        · exact Nat.le_trans ih (Nat.le_add_left _ _)
        · rename_i kept hkept
          have hlag : lag target run.now kept = lag target run.now loop := by
            split at hkept
            · rw [(Loop.free_eq_some hkept).1]
              rfl
            · rw [Option.some.inj hkept]
          rw [List.map_cons, List.sum_cons, hlag]
          exact Nat.add_le_add_left ih _
    exact hfree run.loops

/-- To publish what is over gives nobody more to do, and takes no time. -/
theorem endTicks_spec (target : Nat) (run : Run ρ) :
    run.endTicks.dues target ≤ run.dues target ∧ run.endTicks.now = run.now ∧
      run.endTicks.ticks = run.ticks.filter (!·.isOver) := by
  have hfold : ∀ (ended : List Tick) (state : Run ρ),
      (ended.foldl endTick state).dues target ≤ state.dues target ∧
        (ended.foldl endTick state).now = state.now ∧
          (ended.foldl endTick state).ticks = state.ticks := by
    intro ended
    induction ended with
    | nil => exact fun state => ⟨Nat.le_refl _, rfl, rfl⟩
    | cons tick ended ih =>
      intro state
      obtain ⟨hdues, hnow, hticks⟩ := ih (state.endTick tick)
      refine ⟨Nat.le_trans hdues ?_, ?_, ?_⟩
      · rw [endTick_eq]
        exact dues_loopsAfter_le target state .scrape tick.session
      · rw [List.foldl_cons, hnow, endTick_eq]
      · rw [List.foldl_cons, hticks, endTick_eq]
  exact hfold _ { run with ticks := run.ticks.filter (!·.isOver) }

/-- Answers of the registry take no time and leave the ticks alone. -/
theorem answers_spec (target count : Nat) (run : Run ρ) :
    (answers count run).dues target ≤ run.dues target ∧ (answers count run).now = run.now ∧
      (answers count run).ticks = run.ticks := by
  induction count generalizing run with
  | zero => exact ⟨Nat.le_refl _, rfl, rfl⟩
  | succ count ih =>
    obtain ⟨hdues, hnow, hticks⟩ := ih (run.answer 0)
    have hone : (run.answer 0).dues target ≤ run.dues target ∧ (run.answer 0).now = run.now ∧
        (run.answer 0).ticks = run.ticks := by
      cases hrescan : run.rescans[0]? with
      | none =>
        rw [run.answer_eq_of_none hrescan]
        exact ⟨Nat.le_refl _, rfl, rfl⟩
      | some rescan =>
        cases hanswer : rescan.survey.answer (Discovery.view run.registry) with
        | waits survey =>
          obtain ⟨log, hlog⟩ := run.answer_eq_of_waits hrescan hanswer
          rw [hlog]
          exact ⟨Nat.le_refl _, rfl, rfl⟩
        | done result =>
          obtain ⟨log, hlog⟩ := run.answer_eq_of_done hrescan hanswer
          rw [hlog]
          exact ⟨dues_loopsAfter_le target run .refresh rescan.session, rfl, rfl⟩
    exact ⟨Nat.le_trans hdues hone.1, hnow.trans hone.2.1, hticks.trans hone.2.2⟩

theorem fireLoops_now (run : Run ρ) : run.fireLoops.now = run.now := by
  have hfold : ∀ (due : List Loop) (state : Run ρ), (due.foldl proceed state).now = state.now := by
    intro due
    induction due with
    | nil => exact fun _ => rfl
    | cons loop due ih => exact fun state => (ih _).trans (state.proceed_now loop)
  exact hfold _ _

theorem fireLoops_ticks (run : Run ρ) (hdue : run.loops.filter (·.isDue run.now) = []) :
    run.fireLoops.ticks = run.ticks := by
  unfold fireLoops
  rw [hdue]
  rfl

theorem settleCalls_spec (run : Run ρ) :
    run.settleCalls.now = run.now ∧ run.settleCalls.loops = run.loops ∧
      run.settleCalls.ticks = run.ticks.map (Tick.settle run.now (stamp run.epoch run.now)) := by
  obtain ⟨log, hlog⟩ := run.settleCalls_eq
  rw [hlog]
  exact ⟨rfl, rfl, rfl⟩

theorem stir_now (run : Run ρ) : run.stir.now = run.now := by
  obtain ⟨-, hnow, -⟩ := run.settleCalls.fireLoops.endTicks_spec 0
  exact hnow.trans (run.settleCalls.fireLoops_now.trans run.settleCalls_spec.1)

theorem instant_now (run : Run ρ) : run.instant.now = run.now :=
  (answers_spec 0 _ run.stir).2.1.trans run.stir_now

/-- Every loop that is due at a moment is due once less afterwards. -/
theorem dues_stir (htarget : run.now ≤ target)
    (hinterval : ∀ loop ∈ run.loops, 0 < loop.interval) :
    run.stir.dues target + (run.loops.filter (·.isDue run.now)).length ≤ run.dues target := by
  obtain ⟨hnow, hloops, -⟩ := run.settleCalls_spec
  have hfire := dues_fireLoops run.settleCalls (hnow ▸ htarget) (hloops ▸ hinterval)
  have hsame : run.settleCalls.dues target = run.dues target := by rw [dues, dues, hloops, hnow]
  rw [hnow, hloops, hsame] at hfire
  exact Nat.le_trans
    (Nat.add_le_add_right (run.settleCalls.fireLoops.endTicks_spec target).1 _) hfire

/-- If no loop is due at a moment, then no end is left to be noted after it. -/
theorem hasEnds_stir (hdue : run.loops.filter (·.isDue run.now) = []) :
    run.stir.hasEnds = false := by
  obtain ⟨hnow, hloops, hsettled⟩ := run.settleCalls_spec
  have hticks : run.stir.ticks =
      (run.ticks.map (Tick.settle run.now (stamp run.epoch run.now))).filter (!·.isOver) := by
    rw [← hsettled, ← fireLoops_ticks run.settleCalls (by rw [hloops, hnow, hdue])]
    exact (run.settleCalls.fireLoops.endTicks_spec 0).2.2
  rw [hasEnds, hticks, stir_now]
  refine List.any_eq_false.2 fun tick htick => ?_
  obtain ⟨hmem, hover⟩ := List.mem_filter.1 htick
  obtain ⟨before, -, rfl⟩ := List.mem_map.1 hmem
  rw [Bool.not_eq_true, Bool.or_eq_false_iff]
  refine ⟨by simpa using hover, List.any_eq_false.2 fun call hcall => ?_⟩
  simpa using (Tick.pending_settle_ends hcall).2

theorem lag_le {time : Nat} (hnow : now ≤ time) : lag target time loop ≤ lag target now loop := by
  unfold lag
  omega

/-- If no loop is due at the next time, then an end is to be noted at present, or it is later. -/
theorem hasEnds_or_lt {time : Nat} (hnext : run.nextTime? = some time)
    (hdue : run.loops.filter (Loop.isDue time) = []) : run.hasEnds ∨ run.now < time := by
  rcases due_of_nextTime? hnext with ⟨tick, htick, hover, -⟩ | ⟨tick, htick, call, hcall, htime⟩ |
    ⟨loop, hloop, hfree, htime⟩
  · refine Or.inl (List.any_eq_true.2 ⟨tick, htick, ?_⟩)
    rw [Tick.isOver, hover]
    rfl
  · by_cases hends : call.ends ≤ run.now
    · refine Or.inl (List.any_eq_true.2 ⟨tick, htick, Bool.or_eq_true_iff.2 (Or.inr ?_)⟩)
      exact List.any_eq_true.2 ⟨call, hcall, decide_eq_true hends⟩
    · exact Or.inr (by omega)
  · refine absurd ?_ (List.filter_eq_nil_iff.1 hdue loop hloop)
    rw [Loop.isDue, hfree]
    exact decide_eq_true (htime ▸ Nat.le_max_right _ _)

/-- Each moment at which something happens leaves less to do. -/
theorem effort_stir_lt {time : Nat} (hnext : run.nextTime? = some time) (htarget : time ≤ target)
    (hinterval : ∀ loop ∈ run.loops, 0 < loop.interval) :
    { run with now := time }.stir.effort target < run.effort target := by
  have hnow := now_le_of_nextTime? hnext
  have hdues : { run with now := time }.stir.dues target +
      (run.loops.filter (Loop.isDue time)).length ≤ run.dues target :=
    Nat.le_trans (dues_stir htarget hinterval) (List.sum_le_sum fun _ _ => lag_le hnow)
  have hsame : { run with now := time }.stir.now = time := stir_now _
  unfold effort
  rw [hsame]
  by_cases hdue : run.loops.filter (Loop.isDue time) = []
  -- without a loop that is due, time passes or ends are noted that were there before
  · rw [hasEnds_stir hdue, Bool.toNat_false]
    rcases hasEnds_or_lt hnext hdue with hends | hlater
    · rw [hends, Bool.toNat_true]
      omega
    · omega
  -- a loop that is due counts twice, so that a tick without calls may leave an end behind
  · have hsome := List.length_pos_of_ne_nil hdue
    have hflag := Bool.toNat_le { run with now := time }.stir.hasEnds
    omega

/-- A moment at which something is due leaves less to do until the target. -/
theorem effort_instant_lt {time : Nat} (hnext : run.nextTime? = some time) (htarget : time ≤ target)
    (hinterval : ∀ loop ∈ run.loops, 0 < loop.interval) :
    { run with now := time }.instant.effort target < run.effort target := by
  refine Nat.lt_of_le_of_lt ?_ (effort_stir_lt hnext htarget hinterval)
  obtain ⟨hdues, hnow, hticks⟩ :=
    answers_spec target { run with now := time }.stir.answersLeft { run with now := time }.stir
  have hends : { run with now := time }.instant.hasEnds = { run with now := time }.stir.hasEnds := by
    rw [hasEnds, hasEnds, instant_now, stir_now]
    exact congrArg (fun ticks : List Tick => ticks.any _) hticks
  unfold effort
  rw [instant_now, stir_now, hends]
  exact Nat.add_le_add_right (Nat.add_le_add_right (Nat.mul_le_mul_left 2 hdues) _) _

end

/-! ## Time -/

theorem InCourse.play (h : run.InCourse begun ended) (moves : List (Move ρ)) :
    (run.play moves).InCourse (begun ++ run.begunTicks moves) (ended ++ run.endedTicks moves) :=
  play_induction (P := fun early late state => state.InCourse (begun ++ early) (ended ++ late)) []
    (by simpa using h) (fun hcourse hstep => by simpa using hcourse.step hstep) moves

theorem ComesTo.inCourse {kind : Move ρ → Bool} {later : Run ρ} (h : run.ComesTo kind later)
    (hcourse : run.InCourse begun ended) :
    ∃ begun' ended', later.InCourse begun' ended' ∧ later.config = run.config := by
  obtain ⟨moves, -, rfl⟩ := h
  exact ⟨_, _, hcourse.play moves, (run.config_epoch_play moves).1⟩

/-- No loop of a collector with a sound configuration is due twice at one moment. -/
theorem InCourse.interval_pos (h : run.InCourse begun ended) (hconfig : run.config.fault? = none) :
    ∀ loop ∈ run.loops, 0 < loop.interval := by
  intro loop hloop
  have hpos : ∀ duration : Duration, duration.isZero = false → 0 < duration.millisUp := by
    intro duration hduration
    have hnanos : duration.nanos ≠ 0 := by simpa [Duration.isZero] using hduration
    unfold Duration.millisUp
    omega
  rw [h.orderly.interval loop hloop]
  unfold CollectorConfig.fault? at hconfig
  split at hconfig
  · exact absurd hconfig nofun
  · split at hconfig
    · exact absurd hconfig nofun
    · cases loop.task with
      | scrape => exact hpos _ (by simp_all)
      | refresh => exact hpos _ (by simp_all)

/-- Time passes as long as nothing is due. -/
theorem comesTo_now {target : Nat} (htarget : run.now ≤ target)
    (hnext : ∀ time, run.nextTime? = some time → target ≤ time) :
    run.ComesTo Move.isOwn { run with now := target } := by
  have hwait : run.move (.wait (target - run.now)) = { run with now := target } := by
    unfold move pass
    cases htime : run.nextTime? with
    | none => simp only [Nat.add_sub_cancel' htarget]
    | some time => simp only [Nat.add_sub_cancel' htarget, Nat.min_eq_left (hnext time htime)]
  have hown : (Move.wait (target - run.now) : Move ρ).isOwn := rfl
  exact hwait ▸ ComesTo.single run hown

/-- Time passes up to `target` if nothing happens until then. -/
theorem comesTo_quiet {target : Nat} (htarget : run.now ≤ target)
    (hlater : ∀ time, run.nextTime? = some time → target < time) :
    run.ComesTo Move.isOwn { run with now := target } ∧ { run with now := target }.Quiet :=
  ⟨comesTo_now htarget fun time hnext => (hlater time hnext).le,
    ClearUntil.quiet (clearUntil_of_nextTime? hlater) htarget⟩

/-- Time passes up to the next moment at which something happens. -/
theorem comesTo_nextTime? {time : Nat} (hnext : run.nextTime? = some time) :
    run.ComesTo Move.isOwn { run with now := time } :=
  comesTo_now (now_le_of_nextTime? hnext) fun _ hother =>
    Nat.le_of_eq (Option.some.inj (hnext.symm.trans hother))

/-- Time passes up to `target`, and nothing is left to do then. -/
theorem advance_spec {target : Nat} (moments : Nat) (h : run.InCourse begun ended)
    (hconfig : run.config.fault? = none) (htarget : run.now ≤ target)
    (hmoments : run.effort target ≤ moments) :
    run.ComesTo Move.isInner (run.advance target moments) ∧
      (run.advance target moments).now = target ∧ (run.advance target moments).Quiet := by
  induction moments generalizing run begun ended with
  | zero =>
    unfold effort at hmoments
    omega
  | succ moments ih =>
    have hlast : (∀ time, run.nextTime? = some time → target < time) →
        run.ComesTo Move.isInner { run with now := max run.now target } ∧
          { run with now := max run.now target }.now = target ∧
            { run with now := max run.now target }.Quiet := by
      intro hlater
      obtain ⟨hcomes, hquiet⟩ := comesTo_quiet htarget hlater
      rw [Nat.max_eq_right htarget]
      exact ⟨hcomes.inner, rfl, hquiet⟩
    rw [advance]
    cases hnext : run.nextTime? with
    | none =>
      refine hlast fun time htime => ?_
      rw [hnext] at htime
      cases htime
    | some time =>
      by_cases hbefore : time ≤ target
      · have hcome := (comesTo_nextTime? hnext).inner.trans (comesTo_instant { run with now := time })
        obtain ⟨_, _, hcourse, hsame⟩ := hcome.inCourse h
        have hless := effort_instant_lt hnext hbefore (h.interval_pos hconfig)
        have hnow : { run with now := time }.instant.now ≤ target := by
          rw [instant_now]
          exact hbefore
        obtain ⟨hrest, hafter⟩ := ih hcourse (by rw [hsame, hconfig]) hnow (by omega)
        simp only [if_pos hbefore]
        exact ⟨hcome.trans hrest, hafter⟩
      · simp only [if_neg hbefore]
        refine hlast fun other hother => ?_
        obtain rfl := Option.some.inj (hnext.symm.trans hother)
        exact Nat.not_le.1 hbefore

/-- Time passes up to `target` although the registry answers nothing. -/
theorem exists_comesTo_now {target : Nat} (h : run.InCourse begun ended)
    (hconfig : run.config.fault? = none) (htarget : run.now ≤ target) :
    ∃ later, run.ComesTo Move.isOwn later ∧ later.now = target ∧ later.Quiet := by
  -- each moment without answers leaves less to do
  induction heffort : run.effort target using Nat.strong_induction_on generalizing run begun ended with
  | h effort ih =>
    subst heffort
    by_cases hbefore : ∃ time, run.nextTime? = some time ∧ time ≤ target
    · obtain ⟨time, hnext, hbefore⟩ := hbefore
      have hcome := (comesTo_nextTime? hnext).trans (comesTo_stir { run with now := time })
      obtain ⟨_, _, hcourse, hsame⟩ := hcome.inCourse h
      have hless := effort_stir_lt hnext hbefore (h.interval_pos hconfig)
      have hnow : { run with now := time }.stir.now ≤ target := by
        rw [stir_now]
        exact hbefore
      obtain ⟨later, hrest, hafter⟩ := ih _ hless hcourse (by rw [hsame, hconfig]) hnow rfl
      exact ⟨later, hcome.trans hrest, hafter⟩
    · obtain ⟨hcomes, hquiet⟩ := comesTo_quiet htarget fun time hnext =>
        Nat.not_le.1 fun hle => hbefore ⟨time, hnext, hle⟩
      exact ⟨_, hcomes, rfl, hquiet⟩

/-- The moments that are allowed suffice. -/
theorem effort_le (run : Run ρ) {target : Nat} (htarget : run.now ≤ target) :
    run.effort target ≤ run.momentsUntil target := by
  have hdues : run.dues target ≤ run.loops.length * (target - run.now + 6) := by
    have hlag : ∀ loop ∈ run.loops, lag target run.now loop ≤ target - run.now + 6 := by
      intro loop _
      unfold lag Loop.slack
      omega
    have hsum := List.sum_le_sum hlag
    rwa [List.map_const', List.sum_replicate_nat] at hsum
  have hflag := Bool.toNat_le run.hasEnds
  have hmore : run.loops.length * (target - run.now + 6) ≤
      run.loops.length * (8 * (target - run.now + 2)) :=
    Nat.mul_le_mul_left _ (by omega)
  have hsplit : 16 * (target - run.now + 2) * (run.loops.length + run.ticks.length + 2) =
      2 * (run.loops.length * (8 * (target - run.now + 2))) +
        16 * (target - run.now + 2) * (run.ticks.length + 2) := by
    ring
  have hrest : 16 * (target - run.now + 2) * 2 ≤
      16 * (target - run.now + 2) * (run.ticks.length + 2) :=
    Nat.mul_le_mul_left _ (Nat.le_add_left _ _)
  unfold effort momentsUntil
  omega

/-- A collector that sleeps takes a course of its own until the time is `target`, and has left
nothing undone then. -/
theorem sleepUntil_spec {target : Nat} (h : run.InCourse begun ended)
    (hconfig : run.config.fault? = none) (htarget : run.now ≤ target) :
    run.ComesTo Move.isInner (run.sleepUntil target) ∧ (run.sleepUntil target).now = target ∧
      (run.sleepUntil target).Quiet :=
  advance_spec _ h hconfig htarget (run.effort_le htarget)

theorem le_foldl_max {α : Type} (entries : List α) (time : α → Nat) (least : Nat) :
    least ≤ entries.foldl (fun most entry => max most (time entry)) least := by
  induction entries generalizing least with
  | nil => exact Nat.le_refl _
  | cons entry entries ih => exact Nat.le_trans (Nat.le_max_left _ _) (ih _)

end Vitals.Run
