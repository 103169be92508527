import Vitals.Proofs.Collector.Passage

/-!
# What is asked of a collector

Whatever its owner and its surroundings ask of a collector (`Command`), it takes a course
(`Run.comesTo_perform`, `Run.foldl_perform_eq_play`), and what holds of all courses holds of it. A
refresh asked for by hand is no exception : it comes to what the registry's answers one after
another come to (`Run.comesTo_refreshNow`).
-/

set_option linter.unusedSectionVars false

namespace Vitals.Run

variable {ρ : Type} [Discovery ρ] {run next : Run ρ} {begun ended : List TickAt}

/-! ## Commands -/

/-- What its owner and its surroundings may do with a collector over a registry whose state is a
`ρ`. -/
inductive Command (ρ : Type) where
  | sleep (millis : Nat)
  | scrape
  | refresh
  | start
  | stop
  | drop
  | shutdown
  | changeRegistry (change : ρ → ρ)
  | behave (address : String) (behaviour : Behaviour)
  | read (request : ReadRequest)
  | write (request : WriteRequest)
  | stream (request : StreamRequest)

/-- The collector after a command. -/
def perform (run : Run ρ) : Command ρ → Run ρ
  | .sleep millis => run.sleep millis
  | .scrape => run.scrape.1
  | .refresh => run.refresh.1
  | .start => run.start
  | .stop => run.stop
  | .drop => run.drop
  | .shutdown => run.shutdown
  | .changeRegistry change => run.withRegistry change
  | .behave address behaviour => { run with fleet := run.fleet.behave address behaviour }
  | .read _ | .write _ | .stream _ => run

/-- The moves with which a command begins; all that follow are the collector's own. -/
def Command.moves (run : Run ρ) : Command ρ → List (Move ρ)
  | .sleep _ => []
  | .scrape => [.scrape]
  | .refresh => [.refresh]
  | .start => [.start]
  | .stop => (run.handle.map .stop).toList
  | .drop => run.handle.elim [] fun session => [.letGo, .drop session]
  | .shutdown => run.handle.elim [] fun session => [.letGo, .stop session]
  | .changeRegistry change => [.changeRegistry change]
  | .behave address behaviour => [.changeNodes (run.fleet.behave address behaviour).respond]
  | .read request => [.read request]
  | .write request => [.write request]
  | .stream request => [.stream request]

theorem warn_append (run : Run ρ) (warnings more : List Warning) :
    run.warn (warnings ++ more) = (run.warn warnings).warn more :=
  List.foldl_append

/-- The collector once a refresh has ended that was asked for by hand, with what it came to and all
that there was to warn of. -/
def refreshedBy (run : Run ρ) (rescans : List Rescan) (result : Except RegistryFault Scan)
    (warnings : List Warning) : Run ρ :=
  ({ run with rescans, directory := run.directory.adopt result }.warn warnings).note
    (.refreshed (result.map fun scan : Scan => scan.services.length))

theorem refreshedBy_warn (run : Run ρ) (rescans others : List Rescan)
    (result : Except RegistryFault Scan) (warnings more : List Warning) :
    { run.warn warnings with rescans }.refreshedBy others result more =
      run.refreshedBy others result (warnings ++ more) := by
  rw [refreshedBy, refreshedBy, warn_append]
  simp only [warn_eq]

/-- The registry answers a refresh by hand until it is over. -/
theorem comesTo_refreshedBy (run : Run ρ) (others : List Rescan) (survey : Survey)
    (hrescans : run.rescans = others ++ [⟨none, survey⟩]) :
    run.ComesTo Move.isInner (run.refreshedBy others
      (survey.finish (Discovery.view run.registry))
      (survey.complaints (Discovery.view run.registry))) := by
  -- each answer leaves fewer to wait for, and what the scan comes to
  induction hleft : survey.answersLeft (Discovery.view run.registry) using Nat.strong_induction_on
    generalizing run survey with
  | h left ih =>
    subst hleft
    have hplace : run.rescans[others.length]? = some ⟨none, survey⟩ := by simp [hrescans]
    have hinner : (Move.answer others.length : Move ρ).isInner := rfl
    have hmove : run.move (.answer others.length) = run.answer others.length := rfl
    rw [← survey.finish_answer, ← survey.complaints_answer]
    refine (ComesTo.single run hinner).trans ?_
    cases hanswer : survey.answer (Discovery.view run.registry) with
    | waits next =>
      have hset : run.rescans.set others.length ⟨none, next⟩ = others ++ [⟨none, next⟩] := by
        rw [hrescans, List.set_append_right _ _ (Nat.le_refl _), Nat.sub_self]
        rfl
      have hstate : run.answer others.length =
          { run.warn (survey.warnings (Discovery.view run.registry)) with
            rescans := others ++ [⟨none, next⟩] } := by
        simp only [answer, hplace, hanswer, hset, warn_eq]
      have hregistry : (run.answer others.length).registry = run.registry :=
        run.answer_registry others.length
      have hrest := ih _ (Survey.answersLeft_lt hanswer) (run.answer others.length) next
        (by rw [hstate]) (by rw [hregistry])
      rw [hregistry] at hrest
      rw [hmove, Survey.Outcome.finish, Survey.Outcome.complaints, ← refreshedBy_warn run _ others,
        ← hstate]
      exact hrest
    | done result =>
      have herase : run.rescans.eraseIdx others.length = others := by
        rw [hrescans, List.eraseIdx_append_of_length_le (Nat.le_refl _), Nat.sub_self]
        exact List.append_nil others
      have hstate : run.answer others.length = run.refreshedBy others result
          (survey.warnings (Discovery.view run.registry)) := by
        simp only [answer, hplace, hanswer, herase, warn_eq, refreshedBy, endRescan, note]
      rw [hmove, Survey.Outcome.finish, Survey.Outcome.complaints, List.append_nil, ← hstate]
      exact .refl _ _

/-- A refresh by hand is under way until the registry has answered. -/
theorem comesTo_refreshNow (run : Run ρ) :
    (run.move .refresh).ComesTo Move.isInner run.refreshNow.1 := by
  cases hprompt : Discovery.prompt ρ with
  | true =>
    simp only [move, hprompt, if_true]
    exact .refl _ _
  | false =>
    simp only [move, hprompt, Bool.false_eq_true, if_false]
    exact comesTo_refreshedBy { run with rescans := run.rescans ++ [⟨none, .listing⟩] } run.rescans
      .listing rfl

/-! ## Commands as courses -/

theorem comesTo_sleep (h : run.InCourse begun ended) (hconfig : run.config.fault? = none)
    (millis : Nat) : run.ComesTo Move.isInner (run.sleep millis) := by
  cases millis with
  | zero => exact .refl run _
  | succ millis =>
    obtain ⟨hcomes, hnow, hquiet⟩ := sleepUntil_spec h hconfig (Nat.le_add_right run.now millis)
    -- nothing happens between the last millisecond and the one before it
    have hlast : (run.sleepUntil (run.now + millis)).ComesTo Move.isOwn (run.sleep (millis + 1)) := by
      refine comesTo_now (by omega) fun time hnext => ?_
      have hlater := hquiet.lt_of_nextTime? hnext
      omega
    exact hcomes.trans hlast.inner

theorem comesTo_join (session fuel : Nat) (run : Run ρ) :
    run.ComesTo Move.isInner (run.join session fuel) := by
  induction fuel generalizing run with
  | zero => exact .refl run _
  | succ fuel ih =>
    unfold join
    split
    · cases hnext : run.nextTime? with
      | none => exact .refl run _
      | some time =>
        exact ((comesTo_nextTime? hnext).inner.trans (comesTo_instant { run with now := time })).trans
          (ih _)
    · exact .refl run _

/-- A command is a course, which begins with the moves of the command. -/
theorem comesTo_perform (h : run.InCourse begun ended) (hconfig : run.config.fault? = none)
    (command : Command ρ) :
    (run.play (command.moves run)).ComesTo Move.isInner (run.perform command) := by
  cases command with
  | sleep millis => exact comesTo_sleep h hconfig millis
  | scrape =>
    have hnow : (run.beginTick none).now = run.now := by rw [beginTick_eq]
    refine (sleepUntil_spec (h.play [.scrape]) ?_ ?_).1
    · exact (run.config_epoch_play [.scrape]).1 ▸ hconfig
    · rw [play_cons, play_nil, move, hnow]
      exact le_foldl_max _ _ _
  | refresh => exact run.comesTo_refreshNow
  | start => exact .refl _ _
  | stop =>
    unfold perform stop Command.moves
    cases run.handle with
    | none => exact .refl _ _
    | some session => exact .refl _ _
  | drop =>
    unfold perform drop Command.moves
    cases run.handle with
    | none => exact .refl _ _
    | some session => exact .refl _ _
  | shutdown =>
    unfold perform shutdown Command.moves
    cases run.handle with
    | none => exact .refl _ _
    | some session => exact (comesTo_instant _).trans (comesTo_join session _ _)
  | changeRegistry | behave | read | write | stream => exact .refl _ _

/-- Whatever is asked of a collector, it takes a course. -/
theorem InCourse.exists_play (h : run.InCourse begun ended) (hconfig : run.config.fault? = none)
    (commands : List (Command ρ)) : ∃ moves, commands.foldl perform run = run.play moves := by
  induction commands using List.reverseRecOn with
  | nil => exact ⟨[], rfl⟩
  | append_singleton commands command ih =>
    obtain ⟨moves, hplay⟩ := ih
    have hfault : (run.play moves).config.fault? = none :=
      (run.config_epoch_play moves).1 ▸ hconfig
    obtain ⟨inner, -, hperform⟩ := comesTo_perform (h.play moves) hfault command
    refine ⟨moves ++ (command.moves (run.play moves) ++ inner), ?_⟩
    rw [List.foldl_append, List.foldl_cons, List.foldl_nil, hplay, hperform, play_append,
      play_append]

/-- Whatever is asked of a collector that has been built, it takes a course. -/
theorem foldl_perform_eq_play {config : CollectorConfig} {registry : Option ρ}
    {fleet : Option Fleet} {run : Run ρ} {scan : Scan}
    (h : build config registry fleet = .ok (run, scan)) (commands : List (Command ρ)) :
    ∃ moves, commands.foldl perform run = run.fresh.play moves := by
  obtain ⟨hfresh, hconfig⟩ := fresh_of_build h
  obtain ⟨moves, hplay⟩ := (run.inCourse_play []).exists_play hconfig commands
  exact ⟨moves, hfresh ▸ hplay⟩

theorem told?_of_isInner {move : Move ρ} (h : move.isInner) : move.told? = none := by
  cases move with
  | stop | drop => exact absurd h Bool.false_ne_true
  | _ => rfl

end Vitals.Run
