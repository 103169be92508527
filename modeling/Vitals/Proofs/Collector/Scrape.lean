import Mathlib.Data.List.Forall2
import Vitals.Proofs.Collector.Run

/-!
# What a scrape comes to

A scrape calls every eligible node once, publishes one batch and reports on it. Each call that
was answered gives a snapshot, in the order in which the calls end, and each other call a warning
(`Run.scrape_spec`). This rests on the life of its tick (`Run.scrape_of_idle`) : what the calls
come to is read off from what was pending when they had been made (`Attempt.snapshot?_pending`,
`Attempt.complaint?_pending`).
-/

set_option linter.unusedSectionVars false

namespace Vitals

/-! ## Calls that were made -/

namespace Attempt

variable (limit : Duration) (now : Nat)

/-- A pending call gives the snapshot of the counters it was answered with, at the time when it
ends. -/
theorem snapshot?_pending (epoch : Nat) (attempt : Attempt) :
    (attempt.pending limit now).snapshot? epoch =
      (attempt.counters? limit).map
        (·.toSnapshot attempt.target.reference (stamp epoch (now + attempt.duration limit))) := by
  unfold PendingCall.snapshot? Tick.snapshot? pending counters? Behaviour.ending
  simp only
  cases attempt.behaviour.counters? limit attempt.number with
  | some counters => rfl
  | none => cases attempt.behaviour.fault? limit attempt.number <;> rfl

/-- A pending call is complained of unless it is answered. -/
theorem complaint?_pending (attempt : Attempt) :
    (attempt.pending limit now).complaint? =
      if attempt.isAnswered limit then none else some (attempt.warning limit) := by
  unfold PendingCall.complaint? pending isAnswered warning counters? Behaviour.ending
  simp only
  cases attempt.behaviour.counters? limit attempt.number with
  | some counters => rfl
  | none => cases attempt.behaviour.fault? limit attempt.number <;> rfl

/-- An answered call gives a snapshot, and any other call none. -/
theorem snapshots_forall₂ (epoch : Nat) (attempts : List Attempt) :
    List.Forall₂ (Gives limit · fun time => stamp epoch (now + time))
      (attempts.filter (·.isAnswered limit))
      ((attempts.map (·.pending limit now)).filterMap (PendingCall.snapshot? epoch)) := by
  induction attempts with
  | nil => exact List.Forall₂.nil
  | cons attempt attempts ih =>
    have hsnapshot := attempt.snapshot?_pending limit now epoch
    cases hcounters : attempt.counters? limit with
    | none =>
      have hanswered : ¬attempt.isAnswered limit := by simp [isAnswered, hcounters]
      rw [hcounters, Option.map_none] at hsnapshot
      rw [List.filter_cons_of_neg hanswered, List.map_cons, List.filterMap_cons_none hsnapshot]
      exact ih
    | some counters =>
      have hanswered : attempt.isAnswered limit := by simp [isAnswered, hcounters]
      rw [hcounters, Option.map_some] at hsnapshot
      rw [List.filter_cons_of_pos hanswered, List.map_cons, List.filterMap_cons_some hsnapshot]
      refine List.Forall₂.cons ⟨rfl, ⟨counters, hcounters, ?_⟩, rfl⟩ ih
      exact counters.reportedIn_toSnapshot attempt.target.reference _

theorem complaints_eq (attempts : List Attempt) :
    (attempts.map (·.pending limit now)).filterMap PendingCall.complaint? =
      (attempts.filter (!·.isAnswered limit)).map (·.warning limit) := by
  induction attempts with
  | nil => rfl
  | cons attempt attempts ih =>
    have hcomplaint := attempt.complaint?_pending limit now
    by_cases hanswered : attempt.isAnswered limit
    · rw [if_pos hanswered] at hcomplaint
      rw [List.map_cons, List.filterMap_cons_none hcomplaint,
        List.filter_cons_of_neg (by simp [hanswered]), ih]
    · rw [if_neg hanswered] at hcomplaint
      rw [List.map_cons, List.filterMap_cons_some hcomplaint,
        List.filter_cons_of_pos (by simp [hanswered]), List.map_cons, ih]

/-- The calls in the order in which they end; those that end together keep their order. -/
def inOrder (attempts : List Attempt) : List Attempt :=
  attempts.insertionSort fun a b => a.duration limit ≤ b.duration limit

/-- Pending calls end in the order of how long they take. -/
theorem inOrder_pending (attempts : List Attempt) :
    PendingCall.inOrder (attempts.map (·.pending limit now)) =
      (inOrder limit attempts).map (·.pending limit now) := by
  refine (List.map_insertionSort _ _ _ attempts fun a _ b _ => ?_).symm
  exact (Nat.add_le_add_iff_left (n := now)).symm

end Attempt

/-! ## Scrapes -/

namespace Run

variable {ρ : Type} [Discovery ρ]

/-- The collector with nothing under way : no tick, no refresh and no loop. -/
def idle (run : Run ρ) : Run ρ := { run with ticks := [], rescans := [], loops := [] }

/-- The batches published among events. -/
def batches (events : List Entry) : List Batch :=
  events.filterMap fun
    | ⟨_, .tickEnded _ _ batch⟩ => some batch
    | _ => none

variable {run : Run ρ}

/-- A tick that begins while nothing is under way is alone. -/
theorem alone_beginTick (hticks : run.ticks = []) (hrescans : run.rescans = [])
    (hloops : run.loops = []) : (run.beginTick none).Alone (run.nextTick none) where
  ticks := by rw [beginTick_eq, hticks]; rfl
  rescans := by rw [beginTick_eq, hrescans]
  loops := by rw [beginTick_eq, hloops]
  session := rfl

/-- The scrape is its tick, from the beginning to the end of the last call. -/
theorem scrape_of_idle (hticks : run.ticks = []) (hrescans : run.rescans = [])
    (hloops : run.loops = []) :
    ∃ told : List (Nat × Warning),
      (told.map Prod.snd).Perm (run.nextTick none).complaints ∧
        run.scrape = ((run.beginTick none).completed (run.nextTick none) told,
          ⟨run.targets.length, ((run.nextTick none).outcome run.epoch).length⟩) := by
  have halone := alone_beginTick hticks hrescans hloops
  have hnow : (run.beginTick none).now = run.now := by rw [beginTick_eq]
  have hepoch : (run.beginTick none).epoch = run.epoch := by rw [beginTick_eq]
  have hpending : ∀ call ∈ (run.nextTick none).pending,
      (run.beginTick none).now ≤ call.ends := by
    intro call hcall
    obtain ⟨attempt, -, rfl⟩ := List.mem_map.1 hcall
    rw [hnow]
    exact Nat.le_add_right run.now _
  have hends : (((run.beginTick none).ticks.filter (·.number == run.ticksBegun)).foldl
      (fun t tick => max t (tick.endsAt run.now)) run.now) =
        (run.nextTick none).endsAt (run.beginTick none).now := by
    have hown : [run.nextTick none].filter (·.number == run.ticksBegun) =
        [run.nextTick none] := List.filter_cons_of_pos (beq_self_eq_true run.ticksBegun)
    rw [halone.ticks, hown, hnow]
    exact Nat.max_eq_right Tick.le_endsAt
  obtain ⟨told, hperm, hslept⟩ := sleepUntil_of_alone halone hpending
  refine ⟨told, hperm, ?_⟩
  unfold scrape
  simp only [hends, hslept]
  refine Prod.ext rfl ?_
  have hnumber : (run.nextTick none).number = run.ticksBegun := rfl
  simp only [completed, hepoch, List.cons_append, List.findSome?_cons, if_pos hnumber]
  rfl

/-! ## What is noted of a scrape -/

/-- What has been noted since is what the log has got on top. -/
theorem eventsSince_of_log {earlier : Run ρ} {entries : List Entry}
    (h : run.log = entries ++ earlier.log) : run.eventsSince earlier = entries.reverse := by
  have hlength : run.log.length - earlier.log.length = entries.length := by
    rw [h, List.length_append, Nat.add_sub_cancel]
  unfold eventsSince
  rw [hlength, h, List.take_left]

theorem views_warningEntries (told : List (Nat × Warning)) :
    calls (warningEntries told) = [] ∧ batches (warningEntries told) = [] ∧
      warnings (warningEntries told) = told.map Prod.snd := by
  induction told with
  | nil => exact ⟨rfl, rfl, rfl⟩
  | cons first told ih =>
    obtain ⟨hcalls, hbatches, hwarnings⟩ := ih
    exact ⟨hcalls, hbatches, congrArg (first.2 :: ·) hwarnings⟩

theorem views_callEntries (now number : Nat) (targets : List Target) :
    calls (callEntries now number targets) =
        targets.map (fun target => (target.call, target.node.address)) ∧
      batches (callEntries now number targets) = [] ∧
      warnings (callEntries now number targets) = [] := by
  induction targets with
  | nil => exact ⟨rfl, rfl, rfl⟩
  | cons target targets ih =>
    obtain ⟨hcalls, hbatches, hwarnings⟩ := ih
    exact ⟨congrArg ((target.call, target.node.address) :: ·) hcalls, hbatches, hwarnings⟩

/-- The entries of a scrape, the earliest first : the beginning of its tick, the calls, the
warnings `told`, and the end of the tick. -/
def scrapeEntries (run : Run ρ) (told : List (Nat × Warning)) : List Entry :=
  let tick := run.nextTick none
  let batch := tick.outcome run.epoch
  ⟨run.now, .tickBegan run.ticksBegun none⟩ ::
    (callEntries run.now run.ticksBegun run.targets ++ (warningEntries told.reverse ++
      [⟨tick.endsAt run.now, .tickEnded run.ticksBegun ⟨run.targets.length, batch.length⟩ batch⟩]))

/-- What a scrape notes, from the beginning of its tick to the end. -/
theorem eventsSince_completed (run : Run ρ) (told : List (Nat × Warning)) :
    ((run.beginTick none).completed (run.nextTick none) told).eventsSince run =
      run.scrapeEntries told := by
  have hlog : ((run.beginTick none).completed (run.nextTick none) told).log =
      (run.scrapeEntries told).reverse ++ run.log := by
    rw [completed, beginTick_eq]
    simp [scrapeEntries, warningEntries, nextTick]
  rw [eventsSince_of_log hlog, List.reverse_reverse]

theorem views_scrapeEntries (run : Run ρ) (told : List (Nat × Warning)) :
    calls (run.scrapeEntries told) =
        run.targets.map (fun target => (target.call, target.node.address)) ∧
      batches (run.scrapeEntries told) = [(run.nextTick none).outcome run.epoch] ∧
      (warnings (run.scrapeEntries told)).Perm (told.map Prod.snd) := by
  obtain ⟨hcalls, hbatches, hwarnings⟩ := views_callEntries run.now run.ticksBegun run.targets
  obtain ⟨hcalls', hbatches', hwarnings'⟩ := views_warningEntries told.reverse
  refine ⟨?_, ?_, ?_⟩
  · rw [calls] at hcalls hcalls' ⊢
    rw [scrapeEntries, List.filterMap_cons_none rfl, List.filterMap_append, hcalls,
      List.filterMap_append, hcalls']
    exact List.append_nil _
  · rw [batches] at hbatches hbatches' ⊢
    rw [scrapeEntries, List.filterMap_cons_none rfl, List.filterMap_append, hbatches,
      List.filterMap_append, hbatches']
    rfl
  · rw [warnings] at hwarnings hwarnings' ⊢
    rw [scrapeEntries, List.filterMap_cons_none rfl, List.filterMap_append, hwarnings,
      List.filterMap_append, hwarnings', List.map_reverse]
    exact (List.Perm.of_eq (List.append_nil _)).trans (List.reverse_perm _)

/-! ## Scrapes as a whole -/

theorem eligibleTargets_eq (protocol : String) (services : List Service) :
    eligibleTargets protocol services =
      services.flatMap fun service =>
        (service.nodes.filter (·.protocol? = some protocol)).map (⟨service, ·⟩) := by
  refine List.flatMap_congr fun service _ => congrArg _ (List.filter_congr fun node _ => ?_)
  exact beq_eq_decide _ _

theorem map_target_attempts (run : Run ρ) : run.attempts.map (·.target) = run.targets :=
  run.fleet.map_target_attempts run.targets

/-- The batch has a snapshot for each answered call, in the order in which they end. -/
theorem outcome_nextTick (run : Run ρ) :
    List.Forall₂ (Attempt.Gives run.config.callTimeout ·
        fun time => stamp run.epoch (run.now + time))
      ((Attempt.inOrder run.config.callTimeout run.attempts).filter
        (·.isAnswered run.config.callTimeout))
      ((run.nextTick none).outcome run.epoch) := by
  rw [Tick.outcome, nextTick, List.nil_append, Attempt.inOrder_pending]
  exact Attempt.snapshots_forall₂ _ _ _ _

/-- No node gives two snapshots. -/
theorem length_outcome_le (run : Run ρ) :
    ((run.nextTick none).outcome run.epoch).length ≤ run.targets.length := by
  rw [← run.outcome_nextTick.length_eq, ← run.map_target_attempts, List.length_map]
  refine (List.length_filter_le _ _).trans_eq ?_
  exact List.length_insertionSort _ run.attempts

/-- A scrape of a collector with nothing else under way calls every node that speaks the
protocol of the client once, in the order of the directory, and publishes one batch. The batch
holds one snapshot for each call that was answered in time with counters, in the order in which
these calls ended, those that ended together in the order of the directory; each other call is
warned of once. The report counts the calls and the snapshots. -/
theorem scrape_spec (run : Run ρ) :
    let limit := run.config.callTimeout
    let before := run.idle
    let after := before.scrape.1
    let report := before.scrape.2
    let events := after.eventsSince before
    run.attempts.map (·.target) =
        run.directory.services.flatMap (fun service =>
          (service.nodes.filter (·.protocol? = some run.fleet.protocol)).map (⟨service, ·⟩)) ∧
      (∀ attempt ∈ run.attempts, attempt.behaviour =
        run.fleet.respond attempt.target.node.address attempt.target.call) ∧
      calls events = run.attempts.map (fun attempt =>
        (⟨attempt.target.service.name, "Debug.Stats", .object []⟩,
          attempt.target.node.address)) ∧
      (∃ batch, after.published = run.published.publish batch ∧ batches events = [batch] ∧
        List.Forall₂ (Attempt.Gives limit · fun time => stamp run.epoch (run.now + time))
          ((Attempt.inOrder limit run.attempts).filter (·.isAnswered limit)) batch ∧
        report.eligible = (calls events).length ∧ report.collected = batch.length ∧
        report.collected ≤ report.eligible) ∧
      (warnings events).Perm
        ((run.attempts.filter (!·.isAnswered limit)).map (·.warning limit)) := by
  intro limit before after report events
  obtain ⟨told, hperm, hscrape⟩ := scrape_of_idle (rfl : before.ticks = []) rfl rfl
  have hafter : after = (before.beginTick none).completed (before.nextTick none) told :=
    congrArg Prod.fst hscrape
  have hreport : report =
      ⟨run.targets.length, ((run.nextTick none).outcome run.epoch).length⟩ :=
    congrArg Prod.snd hscrape
  have hevents : events = before.scrapeEntries told := by
    rw [show events = after.eventsSince before from rfl, hafter, eventsSince_completed]
  obtain ⟨hcalls, hbatches, hwarnings⟩ := before.views_scrapeEntries told
  have hcalled : calls events = run.attempts.map fun attempt =>
      (⟨attempt.target.service.name, "Debug.Stats", .object []⟩, attempt.target.node.address) := by
    rw [hevents, hcalls, show before.targets = run.targets from rfl, ← run.map_target_attempts,
      List.map_map]
    rfl
  refine ⟨?_, fun _ => Fleet.behaviour_attempts, hcalled, ⟨(run.nextTick none).outcome run.epoch,
    ?_, ?_, run.outcome_nextTick, ?_, ?_, ?_⟩, ?_⟩
  · rw [run.map_target_attempts, targets, eligibleTargets_eq]
  · rw [hafter, completed, beginTick_eq]
    rfl
  · rw [hevents]
    exact hbatches
  · rw [hreport, hcalled, List.length_map, ← run.map_target_attempts, List.length_map]
  · rw [hreport]
  · rw [hreport]
    exact run.length_outcome_le
  · rw [hevents]
    refine hwarnings.trans (hperm.trans (List.Perm.of_eq ?_))
    exact Attempt.complaints_eq limit run.now run.attempts

end Run

end Vitals
