import Vitals.Proofs.Collector.Effect
import Vitals.Proofs.Collector.Passage

/-!
# What a pair of loops has under way

The ticks of a pair that were under way at one moment of a course, with those that the pair has
begun since, are the ticks that have been published since, with those that are under way still : none
is lost, and each comes to what it came to when it began (`Run.InCourse.account`). A pair of which no
loop is left does not come back (`Run.isAtWork_play`) and changes nothing
(`Run.InCourse.changesOnlyBy_others`), and what is changed without any pair is changed by hand
(`Run.InCourse.changesOnlyBy_hand`).
-/

set_option linter.unusedSectionVars false

namespace Vitals

/-- The number of a tick under way at `now`, when it will end and what it will have gathered. -/
def Tick.prospect (epoch now : Nat) (tick : Tick) : Nat × Nat × Batch :=
  (tick.number, tick.endsAt now, tick.outcome epoch)

namespace TickAt

/-- The number of a tick, when it ends and what it will have gathered by then. -/
def prospect (epoch : Nat) (early : TickAt) : Nat × Nat × Batch :=
  early.tick.prospect epoch early.time

/-- The number of a tick that has been published, when that was and what was published. -/
def result (late : TickAt) : Nat × Nat × Batch := (late.number, late.time, late.tick.batch)

end TickAt

theorem Continues.prospect {epoch now : Nat} {early : TickAt} {tick : Tick}
    (h : Continues epoch now early tick) : tick.prospect epoch now = early.prospect epoch :=
  Prod.ext h.number (Prod.ext h.ends h.outcome)

namespace Run

variable {ρ : Type} [Discovery ρ] {run next : Run ρ} {begun ended : List TickAt} {session : Nat}
  {fired : Option Loop} {early late : Option TickAt} {told : Option (Nat × Signal)}

/-! ## The ticks of a pair -/

/-- The ticks of a pair of loops that are under way. -/
def own (session : Nat) (run : Run ρ) : List Tick := run.ticks.filter (·.session = some session)

theorem mem_own {tick : Tick} :
    tick ∈ run.own session ↔ tick ∈ run.ticks ∧ tick.session = some session := by
  rw [own, List.mem_filter, decide_eq_true_iff]

theorem map_number_own (session : Nat) (run : Run ρ) :
    (run.tickets.filter (·.2 = some session)).map (·.1) = (run.own session).map (·.number) := by
  rw [tickets, List.filter_map, List.map_map]
  rfl

/-- Lists of entries that are known by their numbers are equal if their numbers are. -/
theorem eq_of_map_fst_eq {α : Type} {entries others : List (Nat × α)}
    (hnumbers : entries.map Prod.fst = others.map Prod.fst)
    (hknown : ∀ entry ∈ entries, ∀ other ∈ others, entry.1 = other.1 → entry = other) :
    entries = others := by
  induction entries generalizing others with
  | nil => exact (List.map_eq_nil_iff.1 hnumbers.symm).symm
  | cons entry entries ih =>
    cases others with
    | nil => exact absurd hnumbers (List.cons_ne_nil _ _)
    | cons other others =>
      obtain ⟨hnumber, hrest⟩ := List.cons.inj hnumbers
      obtain rfl := hknown entry List.mem_cons_self other List.mem_cons_self hnumber
      exact congrArg _ (ih hrest fun first hfirst second hsecond =>
        hknown first (List.mem_cons_of_mem _ hfirst) second (List.mem_cons_of_mem _ hsecond))

namespace InCourse

theorem own_eq (h : run.InCourse begun ended) (session : Nat) :
    run.own session = [] ∨ ∃ tick, run.own session = [tick] := by
  have hone : (run.own session).length ≤ 1 := h.length_filter_le_one session
  rcases Nat.le_one_iff_eq_zero_or_eq_one.1 hone with hlength | hlength
  · exact Or.inl (List.length_eq_zero_iff.1 hlength)
  · exact Or.inr (List.length_eq_one_iff.1 hlength)

/-- A tick under way will come to what it came to when it began. -/
theorem exists_prospect_of_own (h : run.InCourse begun ended) {prospect : Nat × Nat × Batch}
    (hmem : prospect ∈ (run.own session).map (Tick.prospect run.epoch run.now)) :
    ∃ early ∈ begun, prospect = early.prospect run.epoch := by
  obtain ⟨tick, htick, rfl⟩ := List.mem_map.1 hmem
  obtain ⟨early, hearly, hcontinues⟩ := h.ledger.underway tick (mem_own.1 htick).1
  exact ⟨early, hearly, hcontinues.prospect⟩

/-- A tick that was published had come to what it came to when it began. -/
theorem exists_prospect_of_ended (h : run.InCourse begun ended) {late : TickAt}
    (hlate : late ∈ ended) : ∃ early ∈ begun, late.result = early.prospect run.epoch := by
  obtain ⟨early, hearly, hnumber, -, hbatch, htime⟩ := h.ledger.whole late hlate
  exact ⟨early, hearly, Prod.ext hnumber (Prod.ext htime hbatch)⟩

/-- The ticks of a pair that have been published since, and those that are under way still, are those
that were under way and those that the pair has begun since. -/
theorem account (h : run.InCourse begun ended) (session : Nat) (moves : List (Move ρ)) :
    (ticksOf session (run.endedTicks moves)).map TickAt.result ++
        ((run.play moves).own session).map (Tick.prospect run.epoch (run.play moves).now) =
      (run.own session).map (Tick.prospect run.epoch run.now) ++
        (ticksOf session (run.begunTicks moves)).map (TickAt.prospect run.epoch) := by
  have hlater := h.play moves
  have hepoch : (run.play moves).epoch = run.epoch := (run.config_epoch_play moves).2
  refine eq_of_map_fst_eq ?_ fun entry hentry other hother hnumber => ?_
  · have hbefore := h.orderly.inOrder session
    have hafter := hlater.orderly.inOrder session
    rw [List.filter_append, List.filter_append, List.map_append, List.map_append, ← hbefore,
      List.append_assoc, List.append_assoc, map_number_own, map_number_own] at hafter
    have hnumbers := List.append_cancel_left hafter
    rw [List.map_append, List.map_append, List.map_map, List.map_map, List.map_map, List.map_map]
    exact hnumbers
  · -- both are what the tick with their number came to when it began
    have hleft : ∃ early ∈ begun ++ run.begunTicks moves, entry = early.prospect run.epoch := by
      rcases List.mem_append.1 hentry with hentry | hentry
      · obtain ⟨late, hlate, rfl⟩ := List.mem_map.1 hentry
        exact hepoch ▸ hlater.exists_prospect_of_ended
          (List.mem_append_right _ (mem_ticksOf.1 hlate).1)
      · rw [← hepoch] at hentry ⊢
        exact hlater.exists_prospect_of_own hentry
    have hright : ∃ early ∈ begun ++ run.begunTicks moves, other = early.prospect run.epoch := by
      rcases List.mem_append.1 hother with hother | hother
      · obtain ⟨early, hearly, heq⟩ := h.exists_prospect_of_own hother
        exact ⟨early, List.mem_append_left _ hearly, heq⟩
      · obtain ⟨early, hearly, rfl⟩ := List.mem_map.1 hother
        exact ⟨early, List.mem_append_right _ (mem_ticksOf.1 hearly).1, rfl⟩
    obtain ⟨first, hfirst, rfl⟩ := hleft
    obtain ⟨second, hsecond, rfl⟩ := hright
    rw [hlater.ledger.eq_of_number hfirst hsecond hnumber]

/-- The one tick that a pair has from some moment on, if it has one, is under way until its end, or
has been published. -/
theorem underway_or_published (h : run.InCourse begun ended) (session : Nat)
    (moves : List (Move ρ)) {ticks : List (Nat × Nat × Batch)}
    (hticks : ticks = (run.own session).map (Tick.prospect run.epoch run.now) ++
      (ticksOf session (run.begunTicks moves)).map (TickAt.prospect run.epoch))
    (hone : ticks.length ≤ 1) :
    let later := run.play moves
    let published := (ticksOf session (run.endedTicks moves)).map TickAt.result
    (published = [] ∧ (∀ tick ∈ ticks, later.now ≤ tick.2.1) ∧
        (later.own session).map (Tick.prospect run.epoch later.now) = ticks) ∨
      later.own session = [] ∧ published = ticks := by
  intro later published
  have haccount : published ++ (later.own session).map (Tick.prospect run.epoch later.now) =
      ticks := (h.account session moves).trans hticks.symm
  have hlater : later.InCourse _ _ := h.play moves
  rcases hlater.own_eq session with hempty | ⟨tick, htick⟩
  · rw [hempty, List.map_nil, List.append_nil] at haccount
    exact Or.inr ⟨hempty, haccount⟩
  · have hnone : published = [] := by
      rw [htick, List.map_singleton] at haccount
      have hlength := congrArg List.length haccount
      rw [List.length_append, List.length_singleton] at hlength
      exact List.length_eq_zero_iff.1 (by omega)
    rw [hnone, List.nil_append] at haccount
    refine Or.inl ⟨hnone, fun prospect hmem => ?_, haccount⟩
    obtain ⟨still, -, rfl⟩ := List.mem_map.1 (haccount ▸ hmem)
    exact Tick.le_endsAt

end InCourse

/-- The ticks that a pair begins are those of its loop that scrapes. -/
theorem ticksOf_begunTicks (session : Nat) (run : Run ρ) (moves : List (Move ρ)) :
    ticksOf session (run.begunTicks moves) =
      (run.beginnings session .scrape moves).map fun moment =>
        ⟨moment.run.now, moment.run.nextTick (some session)⟩ := by
  induction moves using List.reverseRecOn with
  | nil => rfl
  | append_singleton moves move ih =>
    rw [begunTicks_append, beginnings_append, List.map_append, ← ih, ticksOf, List.filter_append]
    refine congrArg _ ?_
    rw [begunTicks_singleton, beginnings_singleton]
    cases hfired : (run.play moves).fired? move with
    | none =>
      have hnone : (run.play moves).begins session .scrape move = false := by simp [begins, hfired]
      rw [hnone, if_neg Bool.false_ne_true]
      cases move with
      | scrape => rfl
      | _ => simp [begun?, hfired]
    | some loop =>
      obtain ⟨place, rfl, -⟩ := fired?_eq_some_iff.1 hfired
      by_cases htask : loop.task = .scrape
      · by_cases hsession : loop.session = session
        · simp [begun?, begins, hfired, htask, hsession, nextTick, TickAt.session]
        · simp [begun?, begins, hfired, htask, hsession, nextTick, TickAt.session]
      · simp [begun?, begins, hfired, htask]

/-! ## The loops of a pair -/

theorem isAtWork_eq_false :
    run.isAtWork session = false ↔ ∀ loop ∈ run.loops, loop.session ≠ session := by
  simp [isAtWork]

/-- A loop that has been taken for a task that is under way is there. -/
theorem Orderly.own_eq_nil (h : run.Orderly begun ended)
    (hnone : ∀ loop ∈ run.loops, loop.session = session → loop.task = .scrape → loop.busy = false) :
    run.own session = [] := by
  refine List.eq_nil_iff_forall_not_mem.2 fun tick htick => ?_
  obtain ⟨hmem, hsession⟩ := mem_own.1 htick
  have hticket : (tick.number, some session) ∈ run.tickets :=
    List.mem_map.2 ⟨tick, hmem, Prod.ext rfl hsession⟩
  obtain ⟨loop, hloop, howner, htask, hbusy⟩ := h.awaited tick.number session hticket
  exact Bool.false_ne_true ((hnone loop hloop howner htask).symm.trans hbusy)

/-- The loop that scrapes for a pair waits if and only if a tick of the pair is under way. -/
theorem Orderly.exists_own_of_busy (h : run.Orderly begun ended) {loop : Loop}
    (hloop : loop ∈ run.loops) (htask : loop.task = .scrape) (hbusy : loop.busy) :
    ∃ tick, tick ∈ run.own loop.session := by
  have hawaited := h.waits loop hloop hbusy
  rw [Awaited, htask] at hawaited
  obtain ⟨number, hticket⟩ := hawaited
  obtain ⟨tick, htick, heq⟩ := List.mem_map.1 hticket
  exact ⟨tick, mem_own.2 ⟨htick, congrArg Prod.snd heq⟩⟩

/-- A pair that has gone does not come back. -/
theorem isAtWork_play (hstarted : session < run.sessions) (hnone : run.isAtWork session = false)
    (moves : List (Move ρ)) : (run.play moves).isAtWork session = false := by
  induction moves generalizing run with
  | nil => exact hnone
  | cons move moves ih =>
    have hstep := run.step_move move
    refine ih (Nat.lt_of_lt_of_le hstarted hstep.sessions_le) ?_
    refine isAtWork_eq_false.2 fun loop hloop hsession => ?_
    rcases hstep.origin hloop with ⟨origin, horigin, hbecomes⟩ | ⟨hnew, -⟩
    · exact isAtWork_eq_false.1 hnone origin horigin (hbecomes.same.1.trans hsession)
    · exact Nat.ne_of_lt hstarted (hsession.symm.trans hnew)

theorem sessions_fire (run : Run ρ) (loop : Loop) : (run.fire loop).sessions = run.sessions := by
  cases htask : loop.task with
  | scrape => rw [fire_scrape_eq run htask, beginTick_eq]
  | refresh =>
    cases hprompt : Discovery.prompt ρ with
    | true =>
      obtain ⟨log, hlog⟩ := fire_refresh_eq run hprompt htask
      rw [hlog]
    | false => rw [fire_rescan_eq run hprompt htask]

theorem sessions_answer (run : Run ρ) (place : Nat) :
    (run.answer place).sessions = run.sessions := by
  cases hrescan : run.rescans[place]? with
  | none => rw [run.answer_eq_of_none hrescan]
  | some rescan =>
    cases hanswer : rescan.survey.answer (Discovery.view run.registry) with
    | waits survey =>
      obtain ⟨log, hlog⟩ := run.answer_eq_of_waits hrescan hanswer
      rw [hlog]
    | done result =>
      obtain ⟨log, hlog⟩ := run.answer_eq_of_done hrescan hanswer
      rw [hlog]

/-- Only a start starts a pair. -/
theorem sessions_move (run : Run ρ) {move : Move ρ} (hmove : move ≠ .start) :
    (run.move move).sessions = run.sessions := by
  cases move with
  | start => exact absurd rfl hmove
  | settle =>
    obtain ⟨log, hlog⟩ := run.settleCalls_eq
    rw [Run.move, hlog]
  | fire place =>
    simp only [Run.move]
    split
    · exact sessions_fire _ _
    · rfl
  | leave place =>
    simp only [Run.move]
    split <;> rfl
  | finish place =>
    simp only [Run.move]
    split
    · rw [endTick_eq]
    · rfl
  | answer place => exact run.sessions_answer place
  | scrape => rw [Run.move, beginTick_eq]
  | refresh =>
    obtain ⟨log, hlog⟩ := run.refreshNow_eq
    simp only [Run.move]
    split
    · rw [hlog]
    · rfl
  | _ => rfl

/-- Loops come only from starting a pair. -/
theorem exists_loop_of_play {moves : List (Move ρ)} (hmoves : ∀ move ∈ moves, move ≠ .start)
    {loop : Loop} (hloop : loop ∈ (run.play moves).loops) :
    ∃ origin ∈ run.loops, origin.session = loop.session := by
  induction moves generalizing run with
  | nil => exact ⟨loop, hloop, rfl⟩
  | cons move moves ih =>
    obtain ⟨hmove, hmoves⟩ := List.forall_mem_cons.1 hmoves
    obtain ⟨between, hbetween, hsession⟩ := ih hmoves hloop
    rcases (run.step_move move).origin hbetween with ⟨origin, horigin, hbecomes⟩ | ⟨-, hmore⟩
    · exact ⟨origin, horigin, hbecomes.same.1.trans hsession⟩
    · have hsessions := run.sessions_move hmove
      omega

/-! ## What a pair changes -/

/-- In a course the directory changes only through refreshes, and what is published only through
ticks, that come from these sources : by hand, which is `none`, or from a pair of loops. -/
def ChangesOnlyBy (sources : Option Nat → Prop) (run : Run ρ) (moves : List (Move ρ)) : Prop :=
  ∀ moment ∈ run.course moves,
    (moment.after.directory ≠ moment.run.directory → ∃ source result,
      moment.run.refreshed? moment.move = some (source, result) ∧ sources source) ∧
    (moment.after.published ≠ moment.run.published → ∃ late,
      moment.run.ended? moment.move = some late ∧ sources late.session)

theorem Step.mem_ticks {late : TickAt} (h : Step run fired early (some late) told next) :
    late.tick ∈ run.ticks := by
  cases h with
  | finish hticks => exact hticks ▸ List.mem_append_right _ List.mem_cons_self

/-- A refresh of a pair ends only as long as a loop of the pair is there. -/
theorem Orderly.exists_loop_of_refreshed? (h : run.Orderly begun ended) {move : Move ρ}
    {result : Except RegistryFault Scan} (hmove : run.refreshed? move = some (some session, result)) :
    ∃ loop ∈ run.loops, loop.session = session := by
  unfold refreshed? at hmove
  split at hmove
  · split at hmove
    · exact absurd (congrArg Prod.fst (Option.some.inj hmove)) nofun
    · exact absurd hmove nofun
  · split at hmove
    · exact absurd hmove nofun
    · rename_i rescan hrescan
      dsimp only at hmove
      split at hmove
      · exact absurd hmove nofun
      · have hsession : rescan.session = some session :=
          congrArg Prod.fst (Option.some.inj hmove)
        have hmem : session ∈ run.rescanners :=
          List.mem_filterMap.2 ⟨rescan, List.mem_of_getElem? hrescan, hsession⟩
        obtain ⟨loop, hloop, howner, -⟩ := h.rescanned session hmem
        exact ⟨loop, hloop, howner⟩
  · split at hmove
    · rename_i loop hfired
      obtain ⟨_, -, hplace, -⟩ := fired?_eq_some_iff.1 hfired
      split at hmove
      · exact ⟨loop, List.mem_of_getElem? hplace,
          Option.some.inj (congrArg Prod.fst (Option.some.inj hmove))⟩
      · exact absurd hmove nofun
    · exact absurd hmove nofun

/-- A tick of a pair ends only as long as a loop of the pair is there. -/
theorem Orderly.exists_loop_of_ended? (h : run.Orderly begun ended) {move : Move ρ} {late : TickAt}
    (hmove : run.ended? move = some late) (hsession : late.session = some session) :
    ∃ loop ∈ run.loops, loop.session = session := by
  have hstep := run.step_move move
  rw [hmove] at hstep
  have hticket : (late.number, some session) ∈ run.tickets :=
    List.mem_map.2 ⟨late.tick, hstep.mem_ticks, Prod.ext rfl hsession⟩
  obtain ⟨loop, hloop, howner, -⟩ := h.awaited late.number session hticket
  exact ⟨loop, hloop, howner⟩

/-- Only by hand is anything changed, or by a pair of which a loop is there. -/
theorem InCourse.changesOnlyBy (h : run.InCourse begun ended) {sources : Option Nat → Prop}
    (moves : List (Move ρ)) (hhand : sources none)
    (hloops : ∀ moment ∈ run.course moves, ∀ loop ∈ moment.run.loops, sources (some loop.session)) :
    run.ChangesOnlyBy sources moves := by
  intro moment hmoment
  obtain ⟨before, -, -, hrun⟩ := exists_play_of_mem_course hmoment
  have horderly : moment.run.Orderly _ _ := hrun ▸ (h.play before).orderly
  refine ⟨fun hdirectory => ?_, fun hpublished => ?_⟩
  · obtain ⟨source, result, hrefreshed⟩ := refreshed?_of_directory hdirectory
    refine ⟨source, result, hrefreshed, ?_⟩
    cases source with
    | none => exact hhand
    | some owner =>
      obtain ⟨loop, hloop, rfl⟩ := horderly.exists_loop_of_refreshed? hrefreshed
      exact hloops moment hmoment loop hloop
  · obtain ⟨late, hended⟩ :=
      Option.ne_none_iff_exists'.1 fun hnone => hpublished (published_move hnone)
    refine ⟨late, hended, ?_⟩
    cases hsession : late.session with
    | none => exact hhand
    | some owner =>
      obtain ⟨loop, hloop, rfl⟩ := horderly.exists_loop_of_ended? hended hsession
      exact hloops moment hmoment loop hloop

/-- A pair that has gone changes nothing. -/
theorem InCourse.changesOnlyBy_others (h : run.InCourse begun ended)
    (hstarted : session < run.sessions) (hnone : run.isAtWork session = false)
    (moves : List (Move ρ)) : run.ChangesOnlyBy (· ≠ some session) moves := by
  refine h.changesOnlyBy moves nofun fun moment hmoment loop hloop hsession => ?_
  obtain ⟨before, -, -, hrun⟩ := exists_play_of_mem_course hmoment
  have hgone : moment.run.isAtWork session = false := hrun ▸ isAtWork_play hstarted hnone before
  exact isAtWork_eq_false.1 hgone loop hloop (Option.some.inj hsession)

/-- Without any loop, all is done by hand. -/
theorem InCourse.changesOnlyBy_hand (h : run.InCourse begun ended) (hloops : run.loops = [])
    {moves : List (Move ρ)} (hmoves : ∀ move ∈ moves, move ≠ .start) :
    run.ChangesOnlyBy (· = none) moves := by
  refine h.changesOnlyBy moves rfl fun moment hmoment loop hloop => ?_
  obtain ⟨before, after, rfl, hrun⟩ := exists_play_of_mem_course hmoment
  obtain ⟨origin, horigin, -⟩ := exists_loop_of_play
    (fun move hmove => hmoves move (List.mem_append_left _ hmove)) (hrun ▸ hloop)
  exact absurd horigin (hloops ▸ List.not_mem_nil)

end Run

end Vitals
