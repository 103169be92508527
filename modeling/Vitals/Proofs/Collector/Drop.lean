import Vitals.Proofs.Collector.Mute

/-!
# Loops that nobody can tell anything

A pair of loops whose handle is dropped ends like one that is told to stop if each of its loops ends
as soon as it hears of it : none is due when the handle is dropped, and one that waits for its task
then is not due again when the task is over (`Run.EndsInTime`). Such a pair begins nothing any more,
and all the collector does is what it would have done had the pair been told to stop
(`Run.InCourse.muted_of_endsInTime`). In any other pair two courses are open to a loop at some
moment, and it may begin its task once more (`Run.InCourse.exists_beginnings_of_not_endsInTime`).
`Run.drop_agrees_iff` puts this together.
-/

set_option linter.unusedSectionVars false

namespace Vitals.Run

variable {ρ : Type} [Discovery ρ] {run next : Run ρ} {begun ended : List TickAt} {session : Nat}
  {fired : Option Loop} {early late : Option TickAt} {told : Option (Nat × Signal)}

/-- Each loop of the pair ends once it hears that nobody is left to tell it anything : it is not due,
and if it waits for a tick, that ends before the loop is due again. A refresh may take any time. -/
def EndsInTime (session : Nat) (run : Run ρ) : Prop :=
  ∀ loop ∈ run.loops, loop.session = session → loop.isDue run.now = false ∧
    (loop.busy → loop.signal = .stopped ∨
      loop.task = .scrape ∧ ∀ tick ∈ run.own session, tick.endsAt run.now < loop.deadline)

/-! ## A pair that ends in time -/

/-- The loop ends with its task, which was under way when the collector was `called`. -/
def Closes (session : Nat) (called : Run ρ) (loop : Loop) : Prop :=
  loop.signal = .stopped ∨ loop.signal = .dropped ∧ loop.task = .scrape ∧
    ∀ tick ∈ called.own session, tick.endsAt called.now < loop.deadline

theorem Closes.note {called : Run ρ} {loop : Loop} (h : called.Closes session loop) {signal : Signal}
    (hsignal : signal ≠ .none) : called.Closes session (loop.note signal) := by
  rcases h with hstopped | ⟨hdropped, htask, hends⟩
  · exact Or.inl (if_pos hstopped)
  · have hnoted : (loop.note signal).signal = signal := by simp [Loop.note, hdropped]
    cases signal with
    | none => exact absurd rfl hsignal
    | stopped => exact Or.inl hnoted
    | dropped => exact Or.inr ⟨hnoted, htask, hends⟩

theorem EndsInTime.lingers_drop (h : run.EndsInTime session) (hstarted : session < run.sessions) :
    (run.move (.drop session)).Lingers session (run.Closes session) where
  started := hstarted
  waits loop hloop hsession := by
    rcases mem_tell.1 hloop with ⟨-, hother⟩ | ⟨waiting, hwaiting, howned, htell⟩
    · exact absurd hsession hother
    · obtain ⟨rfl, hidle⟩ := Loop.tell_eq_some htell
      obtain ⟨hdue, hends⟩ := h waiting hwaiting howned
      have hbusy : waiting.busy := by
        by_contra hfree
        have hfree : waiting.busy = false := by simpa using hfree
        have hdeadline := (hidle hfree).1
        simp [Loop.isDue, hfree, hdeadline] at hdue
      refine ⟨hbusy, ?_⟩
      by_cases hstopped : waiting.signal = .stopped
      · exact Or.inl (if_pos hstopped)
      · obtain ⟨htask, hends⟩ := (hends hbusy).resolve_left hstopped
        exact Or.inr ⟨if_neg hstopped, htask, hends⟩

theorem ended?_spec {move : Move ρ} {last : TickAt} (h : run.ended? move = some last) :
    last.tick ∈ run.ticks ∧ last.tick.isOver := by
  cases move with
  | finish place =>
    obtain ⟨tick, htick, rfl⟩ := Option.map_eq_some_iff.1 h
    obtain ⟨hmem, hover⟩ := Option.filter_eq_some_iff.1 htick
    exact ⟨List.mem_of_getElem? hmem, hover⟩
  | _ => exact absurd h nofun

/-- Every tick of the pair that ends is one that was under way when the handle was dropped. -/
theorem Lingers.endsWith {called : Run ρ} (h : run.Lingers session (called.Closes session))
    (hsame : ∀ tick ∈ run.own session, ∃ origin ∈ called.own session,
      tick.endsAt run.now = origin.endsAt called.now) (move : Move ρ) :
    run.EndsWith session (run.ended? move) := by
  intro loop hloop hsession hlate
  rcases (h.waits loop hloop hsession).2 with hstopped | ⟨hdropped, htask, hends⟩
  · simp [Loop.free, hstopped]
  · obtain ⟨last, hended, howner⟩ := hlate htask
    obtain ⟨htick, hover⟩ := ended?_spec hended
    obtain ⟨origin, horigin, htime⟩ := hsame last.tick (mem_own.2 ⟨htick, howner⟩)
    rw [Tick.endsAt_of_isOver hover] at htime
    have hearly := hends origin horigin
    have hlater : ¬loop.deadline ≤ run.now := by omega
    simp [Loop.free, hdropped, hlater]

/-- The ticks of a pair that begins none are those that it had under way. -/
theorem InCourse.exists_origin (h : run.InCourse begun ended) {moves : List (Move ρ)}
    (hnone : ticksOf session (run.begunTicks moves) = []) {tick : Tick}
    (htick : tick ∈ (run.play moves).own session) :
    ∃ origin ∈ run.own session, tick.endsAt (run.play moves).now = origin.endsAt run.now := by
  have haccount := h.account session moves
  rw [hnone, List.map_nil, List.append_nil] at haccount
  have hmem : tick.prospect run.epoch (run.play moves).now ∈
      (run.own session).map (Tick.prospect run.epoch run.now) :=
    haccount ▸ List.mem_append_right _ (List.mem_map_of_mem htick)
  obtain ⟨origin, horigin, hprospect⟩ := List.mem_map.1 hmem
  exact ⟨origin, horigin, congrArg (fun prospect => prospect.2.1) hprospect.symm⟩

/-- A pair that ends in time when its handle is dropped begins nothing any more, and might as well
have been told to stop. -/
theorem InCourse.muted_of_endsInTime (h : run.InCourse begun ended)
    (hstarted : session < run.sessions) (hintime : run.EndsInTime session) (after : List (Move ρ)) :
    let later := (run.move (.drop session)).play after
    later.Lingers session (run.Closes session) ∧
      (run.move (.stop session)).play after = later.muted session ∧
        ∀ task, (run.move (.drop session)).beginnings session task after = [] := by
  induction after using List.reverseRecOn with
  | nil =>
    exact ⟨hintime.lingers_drop hstarted,
      (muted_drop fun loop hloop hsession => (hintime loop hloop hsession).1).symm, fun _ => rfl⟩
  | append_singleton after move ih =>
    obtain ⟨hlingers, hmuted, hnone⟩ := ih
    have hdropped := h.step (run.step_move (.drop session))
    have hbegun : ticksOf session ((run.move (.drop session)).begunTicks after) = [] := by
      rw [ticksOf_begunTicks, hnone]
      rfl
    have hends := hlingers.endsWith (fun tick => hdropped.exists_origin hbegun) move
    have hkept : ∀ signal, move.told? = some (session, signal) → ∀ loop,
        run.Closes session loop → run.Closes session (loop.note signal) := by
      intro signal hsignal loop hcloses
      refine hcloses.note ?_
      rintro rfl
      rcases told?_eq_some hsignal with rfl | rfl
      · exact absurd hsignal nofun
      · exact absurd hsignal nofun
    refine ⟨?_, ?_, fun task => ?_⟩
    · rw [play_append]
      exact hlingers.step (step_move _ move) hends hkept
    · rw [play_append, play_append, hmuted]
      exact muted_move hlingers hends
    · rw [beginnings_append, hnone, beginnings_singleton, hlingers.spent.begins_eq_false,
        if_neg Bool.false_ne_true]
      rfl

/-! ## A pair that goes on -/

/-- A loop that waits for its task, and is told nothing, goes on waiting. When its task is over, it
is freed or ends. -/
theorem Step.waiting (h : Step run fired early late told next) (horderly : run.Orderly begun ended)
    {loop : Loop} (hloop : loop ∈ run.loops) (hbusy : loop.busy)
    (htold : ∀ signal, told ≠ some (loop.session, signal)) :
    loop ∈ next.loops ∨
      (∀ kept, loop.free run.now = some kept → kept ∈ next.loops) ∧ next.now = run.now ∧
        (loop.task = .scrape → ∃ tick, late = some tick ∧ tick.session = some loop.session) ∧
          (loop.task = .refresh → loop.session ∉ next.rescanners) := by
  have hfreed : ∀ owner task, loop ∈ (run.freeLoop owner task).loops ∨
      (loop.session = owner ∧ loop.task = task) ∧ ∀ kept, loop.free run.now = some kept →
        kept ∈ (run.freeLoop owner task).loops := by
    intro owner task
    by_cases hown : loop.session = owner ∧ loop.task = task
    · exact Or.inr ⟨hown, fun kept hkept =>
        mem_freeLoop.2 (Or.inr ⟨loop, hloop, ⟨hown.1, hown.2, hbusy⟩, hkept⟩)⟩
    · exact Or.inl (mem_freeLoop.2 (Or.inl ⟨hloop, fun hsame => hown ⟨hsame.1, hsame.2.1⟩⟩))
  cases h with
  | same hsame | pass _ _ _ hsame | settle hsame | scrape hsame => exact Or.inl (hsame.loops ▸ hloop)
  | fireScrape hloops hdue _ hsame | fireRefresh hloops hdue _ hsame
  | fireRescan _ hloops hdue _ hsame =>
    rw [hsame.loops]
    exact Or.inl (List.mem_append_left _ (Orderly.mem_of_busy hloops hdue hloop hbusy))
  | leave hloops hdue _ hsame =>
    rw [hsame.loops]
    exact Or.inl (Orderly.mem_of_busy hloops hdue hloop hbusy)
  | @endRescan _ before after rescan owner hrescans howner hsame =>
    rw [hsame.loops]
    obtain hloop | ⟨⟨hsession, htask⟩, hkept⟩ := hfreed owner .refresh
    · exact Or.inl hloop
    · refine Or.inr ⟨hkept, hsame.now, fun hscrape => ?_, fun _ hmem => ?_⟩
      · cases hscrape.symm.trans htask
      · have halone := horderly.alone
        rw [rescanners, hrescans, List.filterMap_append, List.filterMap_cons, howner,
          List.nodup_middle, List.nodup_cons] at halone
        rw [hsame.rescanners, hsession] at hmem
        exact halone.1 (List.filterMap_append ▸ hmem)
  | @finish _ _ _ tick _ _ hsame =>
    rw [hsame.loops]
    cases howner : tick.session with
    | none => exact Or.inl hloop
    | some owner =>
      obtain hloop | ⟨⟨hsession, htask⟩, hkept⟩ := hfreed owner .scrape
      · exact Or.inl hloop
      · refine Or.inr ⟨hkept, hsame.now, fun _ => ⟨_, rfl, hsession ▸ howner⟩, fun hrefresh => ?_⟩
        cases hrefresh.symm.trans htask
  | arm hsame => exact Or.inl (hsame.loops ▸ List.mem_append_left _ hloop)
  | tell other signal _ hsame =>
    have hother : loop.session ≠ other := fun hown => htold signal (by rw [hown])
    exact Or.inl (hsame.loops ▸ mem_tell.2 (Or.inl ⟨hloop, hother⟩))

/-- What holds at the beginning of a course and not at its end is lost by some first move. -/
theorem exists_exit {P : Run ρ → Prop} (hbefore : P run) {moves : List (Move ρ)}
    (hafter : ¬P (run.play moves)) :
    ∃ first last rest, moves = first ++ last :: rest ∧
      (∀ early, early <+: first → P (run.play early)) ∧ ¬P ((run.play first).move last) := by
  induction moves generalizing run with
  | nil => exact absurd hbefore hafter
  | cons move moves ih =>
    by_cases hmove : P (run.move move)
    · obtain ⟨first, last, rest, rfl, hfirst, hlast⟩ := ih hmove hafter
      refine ⟨move :: first, last, rest, rfl, fun early hearly => ?_, hlast⟩
      rcases List.prefix_cons_iff.1 hearly with rfl | ⟨tail, rfl, htail⟩
      · exact hbefore
      · exact hfirst tail htail
    · refine ⟨[], move, moves, rfl, fun early hearly => ?_, hmove⟩
      rw [List.prefix_nil.1 hearly]
      exact hbefore

/-- A loop that is due begins its task. -/
theorem exists_beginnings_of_isDue {loop : Loop} (hloop : loop ∈ run.loops)
    (hdue : loop.isDue run.now) :
    ∃ move : Move ρ, run.beginnings loop.session loop.task [move] ≠ [] := by
  obtain ⟨place, hplace⟩ := List.mem_iff_getElem?.1 hloop
  have hfired : run.fired? (.fire place) = some loop :=
    fired?_eq_some_iff.2 ⟨place, rfl, hplace, hdue⟩
  refine ⟨.fire place, ?_⟩
  rw [beginnings_singleton, if_pos (begins_iff.2 ⟨loop, hfired, rfl, rfl⟩)]
  exact List.cons_ne_nil _ _

theorem exists_beginnings_of_play {task : Task} (moves : List (Move ρ))
    (h : ∃ after, (run.play moves).beginnings session task after ≠ []) :
    ∃ after, run.beginnings session task after ≠ [] := by
  obtain ⟨after, hafter⟩ := h
  refine ⟨moves ++ after, fun hnone => hafter ?_⟩
  rw [beginnings_append] at hnone
  exact (List.append_eq_nil_iff.1 hnone).2

/-- A loop whose handle was dropped, and that is due again when its task is over, begins its task once
more. -/
theorem InCourse.exists_beginnings (h : run.InCourse begun ended) {loop : Loop}
    (hloop : loop ∈ run.loops) (hbusy : loop.busy) (hdropped : loop.signal = .dropped)
    {moves : List (Move ρ)} (htold : ∀ move ∈ moves, move.told? = none)
    (hgone : loop ∉ (run.play moves).loops)
    (hlate : ∀ first last, (∀ early, early <+: first → loop ∈ (run.play early).loops) →
      (loop.task = .scrape → ∃ tick, (run.play first).ended? last = some tick ∧
        tick.session = some loop.session) → loop.deadline ≤ (run.play first).now) :
    ∃ after, run.beginnings loop.session loop.task after ≠ [] := by
  obtain ⟨first, last, rest, rfl, hfirst, hlast⟩ :=
    exists_exit (P := fun state => loop ∈ state.loops) hloop hgone
  have htold : last.told? = none := htold last (by simp)
  rcases ((run.play first).step_move last).waiting (h.play first).orderly
    (hfirst first List.prefix_rfl) hbusy (fun signal hsignal => by simp [htold] at hsignal) with
    hstays | ⟨hfree, hnow, hended, -⟩
  · exact absurd hstays hlast
  · have hdeadline := hlate first last hfirst hended
    have hkept := hfree { loop with busy := false } (by simp [Loop.free, hdropped, hdeadline])
    have hdue : { loop with busy := false }.isDue ((run.play first).move last).now := by
      rw [hnow]
      simp [Loop.isDue, hdeadline]
    have hplay : (run.play first).move last = run.play (first ++ [last]) :=
      (run.play_append first [last]).symm
    obtain ⟨move, hmove⟩ := exists_beginnings_of_isDue hkept hdue
    rw [hplay] at hmove
    exact exists_beginnings_of_play (first ++ [last]) ⟨[move], hmove⟩

/-- A pair begins no tick as long as its loop that scrapes waits for one. -/
theorem InCourse.begunTicks_of_waiting (h : run.InCourse begun ended) {loop : Loop}
    (hbusy : loop.busy) (htask : loop.task = .scrape) {moves : List (Move ρ)}
    (hstays : ∀ early, early <+: moves → loop ∈ (run.play early).loops) :
    ticksOf loop.session (run.begunTicks moves) = [] := by
  rw [ticksOf_begunTicks]
  refine List.map_eq_nil_iff.2 (List.filter_eq_nil_iff.2 fun moment hmoment hbegins => ?_)
  obtain ⟨before, after, hmoves, hrun⟩ := exists_play_of_mem_course hmoment
  have hloop : loop ∈ moment.run.loops := hrun ▸ hstays before ⟨_, hmoves.symm⟩
  have horderly : moment.run.Orderly _ _ := hrun ▸ (h.play before).orderly
  have hspent : moment.run.Spent loop.session .scrape := by
    intro other hother hsession hscrape
    obtain rfl := horderly.eq_of_mem hother hloop hsession (hscrape.trans htask.symm)
    exact hbusy
  exact Bool.false_ne_true ((hspent.begins_eq_false moment.move).symm.trans hbegins)

/-- A loop whose handle was dropped during a tick that does not end before the loop is due again may
begin another tick. -/
theorem InCourse.exists_beginnings_of_tick (h : run.InCourse begun ended)
    (hconfig : run.config.fault? = none) {loop : Loop} (hloop : loop ∈ run.loops)
    (hbusy : loop.busy) (hdropped : loop.signal = .dropped) (htask : loop.task = .scrape)
    {tick : Tick} (htick : tick ∈ run.own loop.session)
    (hlate : loop.deadline ≤ tick.endsAt run.now) :
    ∃ after, run.beginnings loop.session loop.task after ≠ [] := by
  obtain ⟨_, ⟨moves, hown, rfl⟩, hnow, hquiet⟩ := exists_comesTo_now h hconfig
    (Tick.le_endsAt : run.now ≤ tick.endsAt run.now)
  -- whatever the pair has under way while its loop waits is this tick
  have hsame : ∀ before, (∀ early, early <+: before → loop ∈ (run.play early).loops) →
      ∀ other ∈ (run.play before).own loop.session,
        other.endsAt (run.play before).now = tick.endsAt run.now := by
    intro before hstays other hother
    obtain ⟨origin, horigin, hends⟩ :=
      h.exists_origin (h.begunTicks_of_waiting hbusy htask hstays) hother
    rcases h.own_eq loop.session with hempty | ⟨only, honly⟩
    · exact absurd htick (hempty ▸ List.not_mem_nil)
    · rw [honly, List.mem_singleton] at htick horigin
      rw [hends, horigin, htick]
  obtain ⟨before, hbefore, hgone⟩ : ∃ before, before <+: moves ∧ loop ∉ (run.play before).loops := by
    by_contra hnever
    have hstays : ∀ early, early <+: moves → loop ∈ (run.play early).loops := fun early hearly =>
      by_contra fun hgone => hnever ⟨early, hearly, hgone⟩
    obtain ⟨still, hstill⟩ := (h.play moves).orderly.exists_own_of_busy
      (hstays moves List.prefix_rfl) htask hbusy
    have hlater := hquiet.lt_endsAt (mem_own.1 hstill).1
    rw [hsame moves hstays still hstill, hnow] at hlater
    exact Nat.lt_irrefl _ hlater
  refine h.exists_beginnings hloop hbusy hdropped (fun move hmove => ?_) hgone
    fun first last hstays hended => ?_
  · exact told?_of_isInner (ComesTo.isInner_of_isOwn (hown move (hbefore.mem hmove)))
  · obtain ⟨late, hlast, howner⟩ := hended htask
    obtain ⟨hmem, hover⟩ := ended?_spec hlast
    have hends := hsame first hstays late.tick (mem_own.2 ⟨hmem, howner⟩)
    rw [Tick.endsAt_of_isOver hover] at hends
    exact hends ▸ hlate

/-- A refresh goes on until the registry answers. -/
theorem mem_rescanners_of_isOwn {move : Move ρ} (hown : move.isOwn)
    (h : session ∈ run.rescanners) : session ∈ (run.move move).rescanners := by
  cases move with
  | wait => exact h
  | settle =>
    obtain ⟨log, hlog⟩ := run.settleCalls_eq
    rw [move, hlog]
    exact h
  | fire place =>
    simp only [Run.move]
    split
    · rename_i loop _
      cases htask : loop.task with
      | scrape =>
        rw [fire_scrape_eq _ htask, beginTick_eq]
        exact h
      | refresh =>
        cases hprompt : Discovery.prompt ρ with
        | true =>
          obtain ⟨log, hlog⟩ :=
            fire_refresh_eq { run with loops := run.loops.eraseIdx place } hprompt htask
          rw [hlog]
          exact h
        | false =>
          rw [fire_rescan_eq _ hprompt htask, rescanners, List.filterMap_append]
          exact List.mem_append_left _ h
    · exact h
  | leave place =>
    simp only [Run.move]
    split <;> exact h
  | finish place =>
    simp only [Run.move]
    split
    · rw [endTick_eq]
      exact h
    · exact h
  | _ => exact absurd hown Bool.false_ne_true

/-- A loop whose handle was dropped during a refresh may refresh once more, since the registry may
take until the loop is due again. -/
theorem InCourse.exists_beginnings_of_rescan (h : run.InCourse begun ended)
    (hconfig : run.config.fault? = none) {loop : Loop} (hloop : loop ∈ run.loops)
    (hbusy : loop.busy) (hdropped : loop.signal = .dropped) (htask : loop.task = .refresh) :
    ∃ after, run.beginnings loop.session loop.task after ≠ [] := by
  obtain ⟨_, ⟨moves, hown, rfl⟩, hnow, -⟩ :=
    exists_comesTo_now h hconfig (Nat.le_max_left run.now loop.deadline)
  have hstays : loop ∈ (run.play moves).loops := by
    by_contra hgone
    obtain ⟨first, last, rest, rfl, hfirst, hlast⟩ :=
      exists_exit (P := fun state => loop ∈ state.loops) hloop hgone
    have hwaits := (h.play first).orderly.waits loop (hfirst first List.prefix_rfl) hbusy
    rw [Awaited, htask] at hwaits
    have hlastOwn : last.isOwn := hown last (by simp)
    have htold := told?_of_isInner (ComesTo.isInner_of_isOwn hlastOwn)
    rcases ((run.play first).step_move last).waiting (h.play first).orderly
      (hfirst first List.prefix_rfl) hbusy (fun signal hsignal => by simp [htold] at hsignal) with
      hkept | ⟨-, -, -, hanswered⟩
    · exact hlast hkept
    · exact hanswered htask (mem_rescanners_of_isOwn hlastOwn hwaits)
  -- the registry answers all that it was asked, once the loop is due again
  obtain ⟨answers, hinner, hplay⟩ :=
    comesTo_answers (run.play moves).answersLeft (run.play moves)
  have hnone : ((run.play moves).play answers).rescans = [] :=
    hplay ▸ rescans_answerAll (run.play moves)
  have hcourse := h.play moves
  refine exists_beginnings_of_play moves (hcourse.exists_beginnings hstays hbusy hdropped
    (fun move hmove => told?_of_isInner (hinner move hmove)) (fun hmem => ?_)
    fun first _ _ _ => ?_)
  · have hfree := (hcourse.play answers).orderly.busy_eq_false hnone hmem htask
    exact Bool.false_ne_true (hfree.symm.trans hbusy)
  · have hlater := (run.play moves).now_le_play first
    omega

/-! ## Dropping and stopping -/

/-- Nobody can tell the collectors apart by what they have done : they have published the same, know
the same services, have the same ticks and refreshes under way and have noted the same. -/
structure Agrees (run other : Run ρ) : Prop where
  now : other.now = run.now
  published : other.published = run.published
  directory : other.directory = run.directory
  ticks : other.ticks = run.ticks
  rescans : other.rescans = run.rescans
  log : other.log = run.log

theorem agrees_muted (run : Run ρ) (session : Nat) : (run.muted session).Agrees run :=
  ⟨rfl, rfl, rfl, rfl, rfl, rfl⟩

/-- A loop that is due, or waits for its task, is there after its handle was dropped. -/
theorem mem_drop {loop : Loop} (hloop : loop ∈ run.loops) (h : loop.busy ∨ loop.isDue run.now) :
    loop.note .dropped ∈ (run.move (.drop loop.session)).loops := by
  refine mem_tell.2 (Or.inr ⟨loop, hloop, rfl, ?_⟩)
  cases hbusy : loop.busy with
  | true => simp [Loop.tell, hbusy]
  | false =>
    have hdue := h.resolve_left (by simp [hbusy])
    have hdeadline : loop.deadline ≤ run.now := by simpa using (Bool.and_eq_true_iff.1 hdue).2
    simp [Loop.tell, hbusy, hdeadline]

/-- A pair that does not end in time when its handle is dropped may begin a task all the same. -/
theorem InCourse.exists_beginnings_of_not_endsInTime (h : run.InCourse begun ended)
    (hconfig : run.config.fault? = none) (hlate : ¬run.EndsInTime session) :
    ∃ task after, (run.move (.drop session)).beginnings session task after ≠ [] := by
  unfold EndsInTime at hlate
  push Not at hlate
  obtain ⟨loop, hloop, rfl, hlate⟩ := hlate
  have hdropped := h.step (run.step_move (.drop loop.session))
  by_cases hdue : loop.isDue run.now
  · obtain ⟨move, hmove⟩ := exists_beginnings_of_isDue (mem_drop hloop (Or.inr hdue)) hdue
    exact ⟨loop.task, [move], hmove⟩
  · obtain ⟨hbusy, hsignal, hends⟩ := hlate (by simpa using hdue)
    have hkept := mem_drop hloop (Or.inl hbusy)
    have hnoted : (loop.note .dropped).signal = .dropped := if_neg hsignal
    refine ⟨loop.task, ?_⟩
    cases htask : loop.task with
    | scrape =>
      obtain ⟨tick, htick, hdeadline⟩ := hends htask
      have hafter := hdropped.exists_beginnings_of_tick hconfig hkept hbusy hnoted htask htick
        hdeadline
      exact htask ▸ hafter
    | refresh =>
      have hafter := hdropped.exists_beginnings_of_rescan hconfig hkept hbusy hnoted htask
      exact htask ▸ hafter

/-- The means of telling a pair of loops anything is given up at any moment of a course. The pair
begins nothing any more, whatever course it takes, if and only if each of its loops ends once it hears
of it : none is due at that moment, and one that waits for a tick is due again only after the tick's
end, or has been told to stop. In that case all that follows is what would have followed had the pair
been told to stop. In any other case it depends on what a loop chooses that is due just then, or is
due again when its task is over. -/
theorem drop_agrees_iff (run : Run ρ) (hconfig : run.config.fault? = none)
    (before : List (Move ρ)) (session : Nat)
    (hstarted : session < (run.fresh.play before).sessions) :
    let called := run.fresh.play before
    let stopped := called.move (.stop session)
    let dropped := called.move (.drop session)
    ((∀ task, ∀ after : List (Move ρ), dropped.beginnings session task after = []) ↔
        called.EndsInTime session) ∧
      (called.EndsInTime session →
        ∀ after : List (Move ρ), (stopped.play after).Agrees (dropped.play after)) := by
  intro called stopped dropped
  have hcalled := run.inCourse_play before
  have hfault : called.config.fault? = none := (run.fresh.config_epoch_play before).1 ▸ hconfig
  refine ⟨⟨fun hnone => ?_, fun hintime task after => ?_⟩, fun hintime after => ?_⟩
  · by_contra hlate
    obtain ⟨task, after, hafter⟩ := hcalled.exists_beginnings_of_not_endsInTime hfault hlate
    exact hafter (hnone task after)
  · exact (hcalled.muted_of_endsInTime hstarted hintime after).2.2 task
  · have hmuted : stopped.play after = (dropped.play after).muted session :=
      (hcalled.muted_of_endsInTime hstarted hintime after).2.1
    rw [hmuted]
    exact agrees_muted _ session

/-- The loop of a collector that scrapes every minute is given up during a tick of a second and a
half : it might as well have been told to stop. -/
theorem drop_slowCollector :
    let called := slowCollector.fresh.play [.start, .fire 0]
    slowCollector.config.fault? = none ∧ 0 < called.sessions ∧
      (∀ task after, (called.move (.drop 0)).beginnings 0 task after = []) ∧
      ∀ after, ((called.move (.stop 0)).play after).Agrees ((called.move (.drop 0)).play after) := by
  intro called
  have hstarted : 0 < called.sessions := by decide +kernel
  have hintime : called.EndsInTime 0 := by
    unfold EndsInTime
    decide +kernel
  obtain ⟨hbegins, hagrees⟩ := slowCollector.drop_agrees_iff rfl [.start, .fire 0] 0 hstarted
  exact ⟨rfl, hstarted, hbegins.2 hintime, hagrees hintime⟩

/-- A collector that scrapes every second, and has one node that takes a second and a half to
answer. -/
def hastyCollector : Run MemoryRegistry :=
  { slowCollector with
    config := { slowCollector.config with scrapeInterval := .ofMillis 1000 } }

/-- The numbers of the ticks that have ended. -/
def numbersEnded (run : Run ρ) : List Nat :=
  run.log.reverse.filterMap fun
    | ⟨_, .tickEnded number _ _⟩ => some number
    | _ => none

/-- The loop is given up during the first tick, which ends half a second after the loop is due
again. The loop goes on : a second tick begins and is published, which would not have been had the
loop been told to stop. -/
theorem drop_hastyCollector :
    let called := hastyCollector.fresh.play [.start, .fire 0]
    let tick : List (Move MemoryRegistry) := [.wait 1500, .settle, .finish 0]
    let after := tick ++ .fire 0 :: tick
    let stopped := (called.move (.stop 0)).play after
    let dropped := (called.move (.drop 0)).play after
    stopped.numbersEnded = [0] ∧ dropped.numbersEnded = [0, 1] ∧ ¬stopped.Agrees dropped := by
  intro called tick after stopped dropped
  have hstopped : stopped.numbersEnded = [0] := by decide +kernel
  have hdropped : dropped.numbersEnded = [0, 1] := by decide +kernel
  refine ⟨hstopped, hdropped, fun hagrees => ?_⟩
  have hsame : dropped.numbersEnded = stopped.numbersEnded := by
    rw [numbersEnded, hagrees.log]
    rfl
  rw [hstopped, hdropped] at hsame
  exact absurd hsame (by decide)

end Vitals.Run
