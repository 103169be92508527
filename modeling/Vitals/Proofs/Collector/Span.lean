import Vitals.Proofs.Collector.Order
import Vitals.Proofs.Collector.Passage

/-!
# How long a tick takes

A call takes as long as the node makes it take, but no longer than the caller waits
(`Behaviour.duration_eq`), and a tick takes as long as the longest of its calls (`Run.span`,
`Run.endsAt_nextTick`), so that its length is known when it begins. A tick that is alone is
published and returns at its end (`Run.scrape_alone`) ; so is every other tick of a course, whoever
asked for it and whatever else is under way, and one that was asked for by hand returns then
(`Run.InCourse.scrape_ends`). The calls that end with the very last millisecond of the time
allowed are still collected (`Run.tick_takes_span`).
-/

set_option linter.unusedSectionVars false

namespace Vitals

theorem Duration.millisUp_ofMillis (millis : Nat) : (ofMillis millis).millisUp = millis := by
  change (millis * 1000000 + 999999) / 1000000 = millis
  omega

namespace Behaviour

/-- After how long the call ends if nobody gives it up ; a node that hangs never ends it. -/
def delay? : Behaviour → Option Nat
  | answer _ _ delay | fail _ delay | crash delay => some delay
  | hang => none

theorem duration_eq (limit : Duration) (behaviour : Behaviour) :
    behaviour.duration limit = behaviour.delay?.elim limit.millisUp (min · limit.millisUp) := by
  cases behaviour with
  | hang => rw [duration, delay?, Option.elim_none]
  | answer | fail | crash => rw [duration, delay?, Option.elim_some]

end Behaviour

theorem max?_getD_le_iff {times : List Nat} {most : Nat} :
    times.max?.getD 0 ≤ most ↔ ∀ time ∈ times, time ≤ most := by
  cases hmax : times.max? with
  | none => simp [List.max?_eq_none_iff.1 hmax]
  | some longest => exact List.max?_le_iff hmax

/-- What is related to the entries of a list one by one is found for each of them. -/
theorem exists_of_forall₂ {α β : Type} {R : α → β → Prop} {as : List α} {bs : List β}
    (h : List.Forall₂ R as bs) {a : α} (ha : a ∈ as) : ∃ b ∈ bs, R a b := by
  induction h with
  | nil => exact absurd ha List.not_mem_nil
  | cons hab _ ih =>
    rcases List.mem_cons.1 ha with rfl | ha
    · exact ⟨_, List.mem_cons_self, hab⟩
    · obtain ⟨b, hb, hrelated⟩ := ih ha
      exact ⟨b, List.mem_cons_of_mem _ hb, hrelated⟩

namespace Run

variable {ρ : Type} [Discovery ρ] {run : Run ρ} {begun ended : List TickAt}

/-! ## The longest call -/

/-- How long the longest call of a tick would take, where a call is given up after `most`
milliseconds : nothing if there is no node to call. -/
def span (run : Run ρ) (most : Nat) : Nat :=
  (run.targets.map fun target =>
    (run.fleet.respond target.node.address target.call).delay?.elim most (min · most)).max?.getD 0

/-- The calls of a tick take as long as the nodes that are called. -/
theorem map_duration_attempts (run : Run ρ) (limit : Duration) :
    run.attempts.map (·.duration limit) =
      run.targets.map fun target =>
        (run.fleet.respond target.node.address target.call).delay?.elim limit.millisUp
          (min · limit.millisUp) := by
  rw [← run.map_target_attempts, List.map_map]
  refine List.map_congr_left fun attempt hattempt => ?_
  rw [Attempt.duration, Fleet.behaviour_attempts hattempt, Behaviour.duration_eq]
  rfl

theorem span_le_iff {limit : Duration} {most : Nat} :
    run.span limit.millisUp ≤ most ↔ ∀ attempt ∈ run.attempts, attempt.duration limit ≤ most := by
  rw [span, ← run.map_duration_attempts, max?_getD_le_iff, List.forall_mem_map]

theorem span_le (run : Run ρ) (limit : Duration) : run.span limit.millisUp ≤ limit.millisUp :=
  span_le_iff.2 fun attempt _ => attempt.behaviour.duration_le limit

/-- The last call of a tick ends when the longest one does. -/
theorem endsAt_nextTick (run : Run ρ) (session : Option Nat) :
    (run.nextTick session).endsAt run.now =
      run.now + run.span run.config.callTimeout.millisUp := by
  refine eq_of_forall_ge_iff fun time => ?_
  rw [Tick.endsAt_le_iff, nextTick, List.forall_mem_map]
  constructor
  · rintro ⟨hnow, hends⟩
    have hspan : run.span run.config.callTimeout.millisUp ≤ time - run.now :=
      span_le_iff.2 fun attempt hattempt => Nat.le_sub_of_add_le' (hends attempt hattempt)
    omega
  · intro htime
    have hspan : run.span run.config.callTimeout.millisUp ≤ time - run.now := by omega
    refine ⟨by omega, fun attempt hattempt => ?_⟩
    exact Nat.add_le_of_le_sub' (by omega) (span_le_iff.1 hspan attempt hattempt)

/-! ## A tick with nothing else under way -/

/-- A node that answers within the time allowed, the last millisecond included, is answered with
its counters. -/
theorem Attempt.isAnswered_of_le {limit : Duration} {attempt : Attempt} {body : Json}
    {counted : Bool} {delay : Nat} {counters : Counters}
    (hbehaviour : attempt.behaviour = .answer body counted delay) (hdelay : delay ≤ limit.millisUp)
    (hbody : Counters.codec.ofJson
      (if counted then Behaviour.countedBody attempt.number body else body) = .ok counters) :
    attempt.isAnswered limit := by
  have hcounters : attempt.counters? limit = some counters := by
    rw [Attempt.counters?, hbehaviour, Behaviour.counters?, if_pos hdelay, hbody]
    rfl
  rw [Attempt.isAnswered, hcounters]
  rfl

/-- A tick that is alone returns when its longest call has ended, and is published then. -/
theorem scrape_alone (run : Run ρ) :
    let limit := run.config.callTimeout
    let before := run.idle
    let after := before.scrape.1
    let events := after.eventsSince before
    after.now = run.now + run.span limit.millisUp ∧
      ∃ batch, after.published = run.published.publish batch ∧ batches events = [batch] ∧
        ⟨after.now, .tickEnded run.ticksBegun before.scrape.2 batch⟩ ∈ events ∧
          ∀ attempt ∈ run.attempts, attempt.isAnswered limit →
            ∃ snapshot ∈ batch,
              attempt.Gives limit (fun time => stamp run.epoch (run.now + time)) snapshot := by
  intro limit before after events
  obtain ⟨told, -, hscrape⟩ := scrape_of_idle (rfl : before.ticks = []) rfl rfl
  have hafter : after = (before.beginTick none).completed (before.nextTick none) told :=
    congrArg Prod.fst hscrape
  have hevents : events = before.scrapeEntries told := by
    rw [show events = after.eventsSince before from rfl, hafter, eventsSince_completed]
  have hends : (before.nextTick none).endsAt before.now = run.now + run.span limit.millisUp :=
    before.endsAt_nextTick none
  have hnow : after.now = (before.nextTick none).endsAt before.now := by
    rw [hafter, completed, beginTick_eq]
  refine ⟨hnow.trans hends, (run.nextTick none).outcome run.epoch, ?_, ?_, ?_, ?_⟩
  · rw [hafter, completed, beginTick_eq]
    rfl
  · rw [hevents]
    exact (before.views_scrapeEntries told).2.1
  · rw [hevents, hnow, hscrape, scrapeEntries]
    simp only [List.mem_cons, List.mem_append]
    exact Or.inr (Or.inr (Or.inr (Or.inl rfl)))
  · intro attempt hattempt hanswered
    refine exists_of_forall₂ run.outcome_nextTick (List.mem_filter.2 ⟨?_, hanswered⟩)
    exact (List.mem_insertionSort _).2 hattempt

/-! ## Ticks of a course -/

namespace Ledger

theorem number_lt (h : run.Ledger begun ended) {tick : Tick} (htick : tick ∈ run.ticks) :
    tick.number < run.ticksBegun := by
  have hmem : tick.number ∈ begun.map (·.number) :=
    h.split.mem_iff.1 (List.mem_append_right _ (List.mem_map_of_mem htick))
  rw [h.numbers, List.mem_range] at hmem
  exact h.count ▸ hmem

/-- A tick of a course is published when its longest call has ended, neither earlier nor later. -/
theorem published_at (h : run.Ledger begun ended) {moment : Moment ρ} {early : TickAt}
    (hearly : early ∈ begun) (hbegun : moment.run.begun? moment.move = some early) :
    let ends := moment.run.now + moment.run.span moment.run.config.callTimeout.millisUp
    (∀ late ∈ ended, late.number = early.number → late.time = ends) ∧
      (ends < run.now → early.number ∈ ended.map (·.number)) := by
  intro ends
  have hends : early.ends = ends := by
    obtain ⟨session, rfl, -⟩ := begun?_spec hbegun
    exact moment.run.endsAt_nextTick session
  refine ⟨fun late hlate hnumber => ?_, fun hpast => ?_⟩
  · exact (h.time_eq_ends hearly hlate hnumber).1.trans hends
  · exact h.mem_ended hearly (hends ▸ hpast)

end Ledger

/-- When nothing is left to do, the ticks whose time has come have been published. -/
theorem Ledger.mem_ended_of_quiet (h : run.Ledger begun ended) (hquiet : run.Quiet)
    {early : TickAt} (hearly : early ∈ begun) (hends : early.ends ≤ run.now) :
    early.number ∈ ended.map (·.number) := by
  refine (h.ended_or_underway hearly).resolve_right fun ⟨tick, htick, hcontinues⟩ => ?_
  have hlater := hquiet.lt_endsAt htick
  rw [hcontinues.ends] at hlater
  exact absurd hends (Nat.not_le.2 hlater)

/-- A tick that is asked for by hand returns when its longest call has ended, whatever else is
under way, and has been published then. -/
theorem InCourse.scrape_ends (h : run.InCourse begun ended) (hconfig : run.config.fault? = none) :
    ∃ inner : List (Move ρ), run.scrape.1 = run.play (.scrape :: inner) ∧
      run.scrape.1.now = run.now + run.span run.config.callTimeout.millisUp ∧
        ∃ late ∈ ended ++ run.endedTicks (.scrape :: inner), late.number = run.ticksBegun ∧
          late.time = run.scrape.1.now := by
  have hbegin : run.move .scrape = run.beginTick none := rfl
  have hown : (run.move .scrape).ticks.filter (·.number == run.ticksBegun) =
      [run.nextTick none] := by
    have hothers : run.ticks.filter (·.number == run.ticksBegun) = [] :=
      List.filter_eq_nil_iff.2 fun tick htick => by simpa using (h.ledger.number_lt htick).ne
    rw [hbegin, beginTick_eq, List.filter_append, hothers]
    simp [nextTick]
  have hends : ((run.move .scrape).ticks.filter (·.number == run.ticksBegun)).foldl
      (fun time tick => max time (tick.endsAt run.now)) run.now =
        run.now + run.span run.config.callTimeout.millisUp := by
    rw [hown, List.foldl_cons, List.foldl_nil, Nat.max_eq_right Tick.le_endsAt,
      run.endsAt_nextTick]
  have hscrape : run.scrape.1 = (run.play [.scrape]).sleepUntil
      (run.now + run.span run.config.callTimeout.millisUp) := hends ▸ rfl
  have hnow : (run.move .scrape).now = run.now := by rw [hbegin, beginTick_eq]
  obtain ⟨⟨inner, -, hplay⟩, htime, hquiet⟩ :=
    sleepUntil_spec (h.play [.scrape]) (((run.config_epoch_play [.scrape]).1).symm ▸ hconfig)
      (hnow.trans_le (Nat.le_add_right run.now (run.span run.config.callTimeout.millisUp)))
  rw [← hscrape] at hplay htime hquiet
  have hlater := (h.play (.scrape :: inner)).ledger
  rw [show run.play (.scrape :: inner) = run.scrape.1 from hplay.symm] at hlater
  have hearly : ⟨run.now, run.nextTick none⟩ ∈ begun ++ run.begunTicks (.scrape :: inner) :=
    List.mem_append_right _ List.mem_cons_self
  have htick : (run.nextTick none).endsAt run.now = run.scrape.1.now :=
    (run.endsAt_nextTick none).trans htime.symm
  obtain ⟨late, hlate, hnumber⟩ := List.mem_map.1
    (hlater.mem_ended_of_quiet hquiet hearly htick.le)
  exact ⟨inner, hplay, htime, late, hlate, hnumber,
    (hlater.time_eq_ends hearly hlate hnumber).1.trans htick⟩

/-! ## All ticks -/

/-- A tick takes as long as the longest of its calls, no time without a call and never longer than
the caller waits. A tick with nothing else under way is published and returns just then, with a
snapshot of every node whose answer came in time, be it in the last millisecond. In any course of
a collector, each tick that begins is published when its longest call has ended, and a tick that is
asked for by hand at any moment returns then. -/
theorem tick_takes_span (run : Run ρ) :
    let limit := run.config.callTimeout
    let most := limit.millisUp
    let before := run.idle
    let after := before.scrape.1
    let events := after.eventsSince before
    (∀ millis, limit = .ofMillis millis → most = millis) ∧ run.span most ≤ most ∧
      after.now = run.now + run.span most ∧
      (∃ batch, after.published = run.published.publish batch ∧ batches events = [batch] ∧
        ⟨after.now, .tickEnded run.ticksBegun before.scrape.2 batch⟩ ∈ events ∧
        ∀ attempt ∈ run.attempts, ∀ body counted delay counters,
          attempt.behaviour = .answer body counted delay → delay ≤ most →
            Counters.codec.ofJson
              (if counted then Behaviour.countedBody attempt.number body else body) =
                .ok counters →
              ∃ snapshot ∈ batch,
                attempt.Gives limit (fun time => stamp run.epoch (run.now + time)) snapshot) ∧
      ∀ moves : List (Move ρ),
        let opened := run.fresh
        let present := opened.play moves
        let ended := opened.endedTicks moves
        (∀ moment ∈ opened.course moves, ∀ early, moment.run.begun? moment.move = some early →
          let ends := moment.run.now + moment.run.span most
          (∀ late ∈ ended, late.number = early.number → late.time = ends) ∧
            (ends < present.now → early.number ∈ ended.map (·.number))) ∧
        (run.config.fault? = none → ∃ inner : List (Move ρ),
          present.scrape.1 = opened.play (moves ++ .scrape :: inner) ∧
            present.scrape.1.now = present.now + present.span most ∧
              ∃ late ∈ opened.endedTicks (moves ++ .scrape :: inner),
                late.number = present.ticksBegun ∧ late.time = present.scrape.1.now) := by
  intro limit most before after events
  obtain ⟨hnow, batch, hpublished, hbatches, hended, hanswered⟩ := run.scrape_alone
  refine ⟨fun millis hmillis => ?_, run.span_le limit, hnow,
    ⟨batch, hpublished, hbatches, hended, fun attempt hattempt body counted delay counters
      hbehaviour hdelay hbody => ?_⟩, fun moves => ?_⟩
  · exact (congrArg Duration.millisUp hmillis).trans (Duration.millisUp_ofMillis millis)
  · exact hanswered attempt hattempt (Attempt.isAnswered_of_le hbehaviour hdelay hbody)
  · intro opened present ended
    have hcourse : present.InCourse (opened.begunTicks moves) ended := run.inCourse_play moves
    have hconfig : present.config = run.config := (opened.config_epoch_play moves).1
    refine ⟨fun moment hmoment early hbegun => ?_, fun hfault => ?_⟩
    · have hlimit : moment.run.config.callTimeout = limit :=
        congrArg (·.callTimeout) (config_epoch_of_mem_course hmoment).1
      have hearly : early ∈ opened.begunTicks moves := mem_begunTicks.2 ⟨moment, hmoment, hbegun⟩
      have hpublished := hcourse.ledger.published_at hearly hbegun
      rwa [hlimit] at hpublished
    · obtain ⟨inner, hplay, htime, late, hlate, hnumber, hend⟩ :=
        hcourse.scrape_ends (hconfig.symm ▸ hfault)
      refine ⟨inner, hplay.trans (opened.play_append moves _).symm, ?_, late, ?_, hnumber, hend⟩
      · rwa [hconfig] at htime
      · rwa [endedTicks_append]

end Run

end Vitals
