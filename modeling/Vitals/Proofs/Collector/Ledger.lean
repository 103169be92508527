import Vitals.Proofs.Collector.Course
import Vitals.Proofs.Collector.Scrape
import Vitals.Proofs.Published

/-!
# What a collector has published

Ticks of a collector may overlap in any way. At every moment of its course each tick that has
begun is either under way, and will come to just what it would have come to alone
(`Continues`), or has been published once, at the end of its last call and with its whole batch.
`Run.Ledger` says so of the ticks of a course and of the state they have led to; every move keeps
it (`Run.Ledger.step`), so that it holds throughout (`Run.ledger_play`). Readers see the batches
of the ticks that have ended, in the order of their ends, and nothing of any other
(`Run.published_play`).
-/

set_option linter.unusedSectionVars false

namespace Vitals

/-! ## A tick under way -/

/-- The tick, under way at `now`, is the one that began as `early` : it will come to the same,
at the same time. -/
structure Continues (epoch now : Nat) (early : TickAt) (tick : Tick) : Prop where
  number : tick.number = early.number
  session : tick.session = early.session
  outcome : tick.outcome epoch = early.tick.outcome epoch
  ends : tick.endsAt now = early.ends
  pending : ∀ call ∈ tick.pending, now ≤ call.ends

namespace Continues

variable {epoch now : Nat} {early : TickAt} {tick : Tick}

theorem now_le (h : Continues epoch now early tick) : now ≤ early.ends :=
  h.ends ▸ Tick.le_endsAt

/-- Taking in the calls that have ended leaves what the tick comes to. -/
theorem settle (h : Continues epoch now early tick) :
    Continues epoch now early (tick.settle now (stamp epoch now)) where
  number := h.number
  session := h.session
  outcome := (Tick.outcome_settle h.pending epoch).trans h.outcome
  ends := (Tick.endsAt_settle (Nat.le_refl now) Tick.le_endsAt _).trans h.ends
  pending call hcall := h.pending call (Tick.pending_settle_ends hcall).1

/-- Time that passes no call by leaves what the tick comes to. -/
theorem pass (h : Continues epoch now early tick) {time : Nat} (hnow : now ≤ time)
    (hover : tick.pending = [] → time ≤ now)
    (hcalls : ∀ call ∈ tick.pending, time ≤ max now call.ends) :
    Continues epoch time early tick where
  number := h.number
  session := h.session
  outcome := h.outcome
  ends := by
    rw [← h.ends]
    have hpending : ∀ call ∈ tick.pending, time ≤ call.ends := fun call hcall => by
      have hlater := hcalls call hcall
      rwa [Nat.max_eq_right (h.pending call hcall)] at hlater
    refine Nat.le_antisymm (Tick.endsAt_le_iff.2 ⟨?_, fun call => Tick.ends_le_endsAt⟩)
      (Tick.endsAt_le_iff.2 ⟨Nat.le_trans hnow Tick.le_endsAt, fun call => Tick.ends_le_endsAt⟩)
    by_cases hempty : tick.pending = []
    · exact Nat.le_trans (hover hempty) Tick.le_endsAt
    · obtain ⟨call, hcall⟩ := List.exists_mem_of_ne_nil _ hempty
      exact Nat.le_trans (hpending call hcall) (Tick.ends_le_endsAt hcall)
  pending call hcall := by
    have hlater := hcalls call hcall
    rwa [Nat.max_eq_right (h.pending call hcall)] at hlater

/-- A tick whose calls have all ended holds what it came to, and its last call ended just
now. -/
theorem of_isOver (h : Continues epoch now early tick) (hover : tick.isOver) :
    tick.batch = early.tick.outcome epoch ∧ now = early.ends :=
  ⟨(Tick.outcome_of_isOver hover epoch).symm.trans h.outcome,
    (Tick.endsAt_of_isOver hover).symm.trans h.ends⟩

end Continues

namespace Run

variable {ρ : Type} [Discovery ρ] {run next : Run ρ} {begun ended : List TickAt}

/-- A tick that has just begun is under way as it began. -/
theorem continues_nextTick (run : Run ρ) (session : Option Nat) :
    Continues run.epoch run.now ⟨run.now, run.nextTick session⟩ (run.nextTick session) where
  number := rfl
  session := rfl
  outcome := rfl
  ends := rfl
  pending call hcall := by
    obtain ⟨attempt, -, rfl⟩ := List.mem_map.1 hcall
    exact Nat.le_add_right run.now _

/-! ## All ticks of a course -/

/-- The ticks that have begun and those that have been published account for the state of the
collector. -/
structure Ledger (begun ended : List TickAt) (run : Run ρ) : Prop where
  count : run.ticksBegun = begun.length
  /-- Ticks are numbered in the order of their beginnings. -/
  numbers : begun.map (·.number) = List.range begun.length
  /-- Each tick that has begun has been published, or else it is under way. -/
  split : (ended.map (·.number) ++ run.ticks.map (·.number)).Perm (begun.map (·.number))
  underway : ∀ tick ∈ run.ticks, ∃ early ∈ begun, Continues run.epoch run.now early tick
  /-- What was published is the whole outcome, at the end of the last call. -/
  whole : ∀ late ∈ ended, ∃ early ∈ begun, late.number = early.number ∧
    late.session = early.session ∧ late.tick.batch = early.tick.outcome run.epoch ∧
      late.time = early.ends
  past : ∀ late ∈ ended, late.time ≤ run.now
  sorted : ended.Pairwise fun late later => late.time ≤ later.time
  published : run.published = .ofBatches run.config.window (ended.map (·.tick.batch))

theorem ledger_fresh (run : Run ρ) : run.fresh.Ledger [] [] where
  count := rfl
  numbers := rfl
  split := List.Perm.nil
  underway := nofun
  whole := nofun
  past := nofun
  sorted := List.Pairwise.nil
  published := rfl

namespace Ledger

/-- The account is of the time, the ticks and what is published alone. -/
theorem congr (h : run.Ledger begun ended) (hnow : run.now ≤ next.now)
    (hunderway : ∀ tick ∈ next.ticks, ∃ early ∈ begun, Continues run.epoch next.now early tick)
    (hnumbers : next.ticks.map (·.number) = run.ticks.map (·.number))
    (hconfig : next.config = run.config) (hepoch : next.epoch = run.epoch)
    (hcount : next.ticksBegun = run.ticksBegun) (hpublished : next.published = run.published) :
    next.Ledger begun ended where
  count := hcount.trans h.count
  numbers := h.numbers
  split := hnumbers ▸ h.split
  underway := hepoch ▸ hunderway
  whole := hepoch ▸ h.whole
  past late hlate := Nat.le_trans (h.past late hlate) hnow
  sorted := h.sorted
  published := by rw [hpublished, hconfig, h.published]

theorem alike (h : run.Ledger begun ended) {other : Run ρ} (hsame : Alike other next)
    (hother : Alike run
      { other with loops := run.loops, rescans := run.rescans, sessions := run.sessions }) :
    next.Ledger begun ended :=
  h.congr (Nat.le_of_eq (hsame.now.trans hother.now).symm)
    (by rw [hsame.ticks, hsame.now]; exact hother.ticks ▸ hother.now ▸ h.underway)
    (by rw [hsame.ticks]; exact congrArg _ hother.ticks) (hsame.config.trans hother.config)
    (hsame.epoch.trans hother.epoch) (hsame.ticksBegun.trans hother.ticksBegun)
    (hsame.published.trans hother.published)

theorem pass (h : run.Ledger begun ended) {time : Nat} (hnow : run.now ≤ time)
    (hclear : run.ClearUntil time) : { run with now := time }.Ledger begun ended :=
  h.congr hnow (fun tick htick => by
    obtain ⟨early, hearly, hcontinues⟩ := h.underway tick htick
    exact ⟨early, hearly, hcontinues.pass hnow (hclear.ticks tick htick) (hclear.calls tick htick)⟩)
    rfl rfl rfl rfl rfl

theorem settle (h : run.Ledger begun ended) :
    { run with ticks := run.ticks.map (Tick.settle run.now (stamp run.epoch run.now)) }.Ledger
      begun ended :=
  h.congr (Nat.le_refl _) (fun tick htick => by
    obtain ⟨before, hbefore, rfl⟩ := List.mem_map.1 htick
    obtain ⟨early, hearly, hcontinues⟩ := h.underway before hbefore
    exact ⟨early, hearly, hcontinues.settle⟩)
    (List.map_map) rfl rfl rfl rfl

/-- A tick begins, whoever asked for it. -/
theorem begin (h : run.Ledger begun ended) (session : Option Nat) :
    { run with
      ticks := run.ticks ++ [run.nextTick session]
      ticksBegun := run.ticksBegun + 1 }.Ledger
      (begun ++ [TickAt.mk run.now (run.nextTick session)]) ended where
  count := by rw [List.length_append, ← h.count]; rfl
  numbers := by
    rw [List.map_append, h.numbers, List.length_append, List.length_singleton, List.range_succ,
      ← h.count]
    rfl
  split := by
    rw [List.map_append, List.map_append, ← List.append_assoc]
    exact h.split.append_right _
  underway tick htick := by
    rcases List.mem_append.1 htick with htick | htick
    · obtain ⟨early, hearly, hcontinues⟩ := h.underway tick htick
      exact ⟨early, List.mem_append_left _ hearly, hcontinues⟩
    · obtain rfl := List.mem_singleton.1 htick
      exact ⟨⟨run.now, run.nextTick session⟩, List.mem_append_right _ List.mem_cons_self,
        run.continues_nextTick session⟩
  whole late hlate := by
    obtain ⟨early, hearly, hwhole⟩ := h.whole late hlate
    exact ⟨early, List.mem_append_left _ hearly, hwhole⟩
  past := h.past
  sorted := h.sorted
  published := h.published

/-- A tick whose calls have all ended is published. -/
theorem finish (h : run.Ledger begun ended) {before after : List Tick} {tick : Tick}
    (hticks : run.ticks = before ++ tick :: after) (hover : tick.isOver) :
    { run with
      published := run.published.publish tick.batch
      ticks := before ++ after }.Ledger begun (ended ++ [TickAt.mk run.now tick]) where
  count := h.count
  numbers := h.numbers
  split := by
    have hsplit := h.split
    rw [hticks, List.map_append, List.map_cons] at hsplit
    rw [List.map_append, List.map_append, List.append_assoc]
    exact (List.perm_middle.symm.append_left (ended.map (·.number))).trans hsplit
  underway other hother := by
    refine h.underway other ?_
    rw [hticks]
    rcases List.mem_append.1 hother with hother | hother
    · exact List.mem_append_left _ hother
    · exact List.mem_append_right _ (List.mem_cons_of_mem _ hother)
  whole late hlate := by
    rcases List.mem_append.1 hlate with hlate | hlate
    · exact h.whole late hlate
    · obtain rfl := List.mem_singleton.1 hlate
      obtain ⟨early, hearly, hcontinues⟩ := h.underway tick
        (hticks ▸ List.mem_append_right _ List.mem_cons_self)
      obtain ⟨hbatch, hends⟩ := hcontinues.of_isOver hover
      exact ⟨early, hearly, hcontinues.number, hcontinues.session, hbatch, hends⟩
  past late hlate := by
    rcases List.mem_append.1 hlate with hlate | hlate
    · exact h.past late hlate
    · obtain rfl := List.mem_singleton.1 hlate
      exact Nat.le_refl _
  sorted := List.pairwise_append.2 ⟨h.sorted, List.pairwise_singleton _ _, fun late hlate later
    hlater => List.mem_singleton.1 hlater ▸ h.past late hlate⟩
  published := by
    rw [h.published, List.map_append, Published.ofBatches, Published.ofBatches, List.foldl_append]
    rfl

/-- Every move keeps the account. -/
theorem step (h : run.Ledger begun ended) {fired : Option Loop} {early late : Option TickAt}
    {told : Option (Nat × Signal)} (hstep : Step run fired early late told next) :
    next.Ledger (begun ++ early.toList) (ended ++ late.toList) := by
  cases hstep with
  | same hsame => simpa using h.alike hsame {}
  | pass time hnow hclear hsame => simpa using (h.pass hnow hclear).alike hsame {}
  | settle hsame => simpa using h.settle.alike hsame {}
  | scrape hsame => simpa using (h.begin none).alike hsame {}
  | fireScrape _ _ _ hsame => simpa using (h.begin _).alike hsame {}
  | fireRefresh _ _ _ hsame => simpa using h.alike hsame {}
  | fireRescan _ _ _ _ hsame => simpa using h.alike hsame {}
  | endRescan _ _ hsame => simpa using h.alike hsame {}
  | leave _ _ _ hsame => simpa using h.alike hsame {}
  | finish hticks hover hsame => simpa using (h.finish hticks hover).alike hsame {}
  | arm hsame => simpa using h.alike hsame {}
  | tell _ _ _ hsame => simpa using h.alike hsame {}

end Ledger

/-- A property of the state, of the ticks begun and of the ticks published so far holds at every
later moment of a course if it holds at one and every move keeps it. -/
theorem play_induction {opened : Run ρ} {P : List TickAt → List TickAt → Run ρ → Prop}
    (before : List (Move ρ))
    (hbefore : P (opened.begunTicks before) (opened.endedTicks before) (opened.play before))
    (hstep : ∀ {begun ended : List TickAt} {run next : Run ρ} {fired : Option Loop}
      {early late : Option TickAt} {told : Option (Nat × Signal)}, P begun ended run →
        Step run fired early late told next → P (begun ++ early.toList) (ended ++ late.toList) next)
    (after : List (Move ρ)) :
    P (opened.begunTicks (before ++ after)) (opened.endedTicks (before ++ after))
      (opened.play (before ++ after)) := by
  induction after using List.reverseRecOn with
  | nil => rwa [List.append_nil]
  | append_singleton after move ih =>
    rw [← List.append_assoc, begunTicks_append, endedTicks_append,
      opened.play_append (before ++ after), begunTicks_singleton, endedTicks_singleton]
    exact hstep ih ((opened.play (before ++ after)).step_move move)

/-- Every course keeps account of its ticks. -/
theorem ledger_play (run : Run ρ) (moves : List (Move ρ)) :
    (run.fresh.play moves).Ledger (run.fresh.begunTicks moves) (run.fresh.endedTicks moves) :=
  play_induction [] run.ledger_fresh (fun h hstep => h.step hstep) moves

/-! ## The moments of a course -/

theorem Step.config_epoch {fired : Option Loop} {early late : Option TickAt}
    {told : Option (Nat × Signal)} (h : Step run fired early late told next) :
    next.config = run.config ∧ next.epoch = run.epoch := by
  cases h with
  | same hsame | pass _ _ _ hsame | settle hsame | scrape hsame | fireScrape _ _ _ hsame
  | fireRefresh _ _ _ hsame | fireRescan _ _ _ _ hsame | endRescan _ _ hsame | leave _ _ _ hsame
  | finish _ _ hsame | arm hsame | tell _ _ _ hsame =>
    exact ⟨hsame.config, hsame.epoch⟩

/-- Time does not go back. -/
theorem Step.now_le {fired : Option Loop} {early late : Option TickAt}
    {told : Option (Nat × Signal)} (h : Step run fired early late told next) :
    run.now ≤ next.now := by
  cases h with
  | pass time hnow _ hsame => exact hsame.now ▸ hnow
  | same hsame | settle hsame | scrape hsame | fireScrape _ _ _ hsame | fireRefresh _ _ _ hsame
  | fireRescan _ _ _ _ hsame | endRescan _ _ hsame | leave _ _ _ hsame | finish _ _ hsame
  | arm hsame | tell _ _ _ hsame => exact Nat.le_of_eq hsame.now.symm

/-- Time does not pass the deadline of a loop that waits for no task. -/
theorem Step.now_le_max {fired : Option Loop} {early late : Option TickAt}
    {told : Option (Nat × Signal)} (h : Step run fired early late told next) {loop : Loop}
    (hloop : loop ∈ run.loops) (hfree : loop.busy = false) :
    next.now ≤ max run.now loop.deadline := by
  cases h with
  | pass time _ hclear hsame => exact hsame.now ▸ hclear.loops loop hloop hfree
  | same hsame | settle hsame | scrape hsame | fireScrape _ _ _ hsame | fireRefresh _ _ _ hsame
  | fireRescan _ _ _ _ hsame | endRescan _ _ hsame | leave _ _ _ hsame | finish _ _ hsame
  | arm hsame | tell _ _ _ hsame => exact hsame.now ▸ Nat.le_max_left _ _

theorem Step.sessions_le {fired : Option Loop} {early late : Option TickAt}
    {told : Option (Nat × Signal)} (h : Step run fired early late told next) :
    run.sessions ≤ next.sessions := by
  cases h with
  | arm hsame => exact hsame.sessions ▸ Nat.le_succ run.sessions
  | same hsame | pass _ _ _ hsame | settle hsame | scrape hsame | fireScrape _ _ _ hsame
  | fireRefresh _ _ _ hsame | fireRescan _ _ _ _ hsame | endRescan _ _ hsame
  | leave _ _ _ hsame | finish _ _ hsame | tell _ _ _ hsame =>
    exact Nat.le_of_eq hsame.sessions.symm

theorem config_epoch_play (run : Run ρ) (moves : List (Move ρ)) :
    (run.play moves).config = run.config ∧ (run.play moves).epoch = run.epoch := by
  induction moves generalizing run with
  | nil => exact ⟨rfl, rfl⟩
  | cons move moves ih =>
    obtain ⟨hconfig, hepoch⟩ := (run.step_move move).config_epoch
    obtain ⟨hconfig', hepoch'⟩ := ih (run.move move)
    exact ⟨hconfig'.trans hconfig, hepoch'.trans hepoch⟩

theorem now_le_play (run : Run ρ) (moves : List (Move ρ)) : run.now ≤ (run.play moves).now := by
  induction moves generalizing run with
  | nil => exact Nat.le_refl _
  | cons move moves ih => exact Nat.le_trans (run.step_move move).now_le (ih (run.move move))

theorem config_epoch_of_mem_course {run : Run ρ} {moves : List (Move ρ)} {moment : Moment ρ}
    (h : moment ∈ run.course moves) :
    moment.run.config = run.config ∧ moment.run.epoch = run.epoch := by
  obtain ⟨before, -, -, hrun⟩ := exists_play_of_mem_course h
  exact hrun ▸ run.config_epoch_play before

theorem mem_begunTicks {run : Run ρ} {moves : List (Move ρ)} {early : TickAt} :
    early ∈ run.begunTicks moves ↔
      ∃ moment ∈ run.course moves, moment.run.begun? moment.move = some early :=
  List.mem_filterMap

/-- A tick that begins was asked for by hand, or by the loop that began its task. -/
theorem Step.begun_spec {fired : Option Loop} {early : TickAt} {late : Option TickAt}
    {told : Option (Nat × Signal)} (h : Step run fired (some early) late told next) :
    ∃ session, early = ⟨run.now, run.nextTick session⟩ ∧
      ∀ owner, session = some owner → ∃ loop, fired = some loop ∧ loop.session = owner := by
  cases h with
  | scrape => exact ⟨none, rfl, nofun⟩
  | @fireScrape _ _ _ loop => exact ⟨_, rfl, fun _ howner => ⟨loop, rfl, Option.some.inj howner⟩⟩

/-- A tick begins at the present moment, over the directory as it is, for a pair only if a loop of
the pair takes its turn. -/
theorem begun?_spec {move : Move ρ} {early : TickAt} (h : run.begun? move = some early) :
    ∃ session, early = ⟨run.now, run.nextTick session⟩ ∧
      ∀ owner, session = some owner →
        ∃ loop, run.fired? move = some loop ∧ loop.session = owner := by
  have hstep := run.step_move move
  rw [h] at hstep
  exact hstep.begun_spec

/-- What is published changes only when a tick ends. -/
theorem Step.published_eq {fired : Option Loop} {early : Option TickAt}
    {told : Option (Nat × Signal)} (h : Step run fired early none told next) :
    next.published = run.published := by
  cases h with
  | same hsame | pass _ _ _ hsame | settle hsame | scrape hsame | fireScrape _ _ _ hsame
  | fireRefresh _ _ _ hsame | fireRescan _ _ _ _ hsame | endRescan _ _ hsame | leave _ _ _ hsame
  | arm hsame | tell _ _ _ hsame => exact hsame.published

/-- What is published changes only when a tick ends. -/
theorem published_move {move : Move ρ} (h : run.ended? move = none) :
    (run.move move).published = run.published := by
  have hstep := run.step_move move
  rw [h] at hstep
  exact hstep.published_eq

/-! ## What readers see -/

/-- At every moment of a course the current batch, the history and the answers to requests are
those of the batches of the ticks that have ended, in the order of their ends. Every tick that has
begun has ended once or is still under way; its batch holds one snapshot for each of its calls
that was answered in time, in the order of the ends of these calls, and was published when its
last call ended. Nothing but the end of a tick changes what is published. -/
theorem published_play (run : Run ρ) (moves : List (Move ρ)) :
    let opened := run.fresh
    let present := opened.play moves
    let limit := run.config.callTimeout
    let begun := opened.begunTicks moves
    let ended := opened.endedTicks moves
    let batches := ended.map (·.tick.batch)
    let retained := min (max run.config.window 1) batches.length
    (present.published.current = batches.getLastD [] ∧
      (∀ n, present.published.history.recent n = batches.rtake (min n retained)) ∧
      present.published.retained = retained ∧
      ∀ request, (present.read request).stats =
        ((if request.past then batches.rtake (min run.config.effectiveMaxWindow retained)
          else [batches.getLastD []]).flatten).filter request.accepts) ∧
      begun.map (·.number) = List.range begun.length ∧
      (ended.map (·.number) ++ present.ticks.map (·.number)).Perm (begun.map (·.number)) ∧
      (ended.Pairwise fun late later => late.time ≤ later.time) ∧
      (∀ late ∈ ended, ∃ moment ∈ opened.course moves, ∃ early,
        moment.run.begun? moment.move = some early ∧ early.number = late.number ∧
          late.time = early.ends ∧
            List.Forall₂
              (Attempt.Gives limit · fun time => stamp run.epoch (moment.run.now + time))
              ((Attempt.inOrder limit moment.run.attempts).filter (·.isAnswered limit))
              late.tick.batch) ∧
      ∀ moment ∈ opened.course moves, moment.run.ended? moment.move = none →
        moment.after.published = moment.run.published := by
  intro opened present limit begun ended batches retained
  have hledger : present.Ledger begun ended := run.ledger_play moves
  obtain ⟨hconfig, hepoch⟩ := opened.config_epoch_play moves
  have hconfig : present.config = run.config := hconfig
  have hepoch : present.epoch = run.epoch := hepoch
  have hpublished : present.published = .ofBatches run.config.window batches :=
    hconfig ▸ hledger.published
  have hshows := Published.shows_ofBatches run.config.window batches
  rw [← hpublished] at hshows
  have hwindow : min present.published.window batches.length = retained := by
    rw [hpublished, Published.window_ofBatches]
  refine ⟨⟨hshows.current, fun n => ?_, ?_, fun request => ?_⟩, hledger.numbers, hledger.split,
    hledger.sorted, fun late hlate => ?_, fun moment _ hnone => published_move hnone⟩
  · rw [hshows.recent, hwindow]
  · rw [hshows.retained, hwindow]
  · rw [Run.read, hshows.read, hwindow, hconfig]
  · obtain ⟨early, hearly, hnumber, -, hbatch, htime⟩ := hledger.whole late hlate
    obtain ⟨moment, hmoment, hbegun⟩ := mem_begunTicks.1 hearly
    obtain ⟨hconfig', hepoch'⟩ := config_epoch_of_mem_course hmoment
    refine ⟨moment, hmoment, early, hbegun, hnumber.symm, htime, ?_⟩
    have hstep := moment.run.step_move moment.move
    rw [hbegun] at hstep
    obtain ⟨session, rfl, -⟩ := hstep.begun_spec
    have houtcome := moment.run.outcome_nextTick
    rw [hconfig', hepoch'] at houtcome
    rw [hbatch, hepoch]
    exact houtcome

end Run

end Vitals
