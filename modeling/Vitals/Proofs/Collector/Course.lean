import Vitals.Proofs.Collector.Instant

/-!
# The course of a collector

What happens to a collector is a sequence of moves (`Move`) : time passes, calls end, a loop that
is due begins its task, or ends if it has been told something, a tick whose calls have all ended
is published, and from outside comes whatever its owner, its registry and its surroundings do.
`Run.play` plays any list of moves one after another; a move that is not open at the moment changes
nothing, so that every list of them is a course that the collector can take. Ticks and refreshes
asked for by hand are not waited for here, so that any number of them may be under way together
with those of the loops, and a registry that does not answer at once may answer at any time.

`Run.course` lists the moments of a course, `Run.begunTicks` and `Run.endedTicks` the ticks that
began and that were published in it. What one move does to the time, to the ticks, to the loops and
to what is published is said once, in `Run.Step` (`Run.step_move`), and what it makes of each loop in
`Run.Becomes` (`Run.Step.origin`).
-/

set_option linter.unusedSectionVars false

namespace Vitals

/-! ## Moves -/

/-- Something that may be done next with a collector over a registry whose state is a `ρ`. -/
inductive Move (ρ : Type) where
  /-- Time passes, so many milliseconds but not beyond the next thing that is due. -/
  | wait (millis : Nat)
  /-- The calls whose time has come end. -/
  | settle
  /-- The loop at a place begins its task, if it is due. -/
  | fire (place : Nat)
  /-- The loop at a place ends, if it is due and has been told something. -/
  | leave (place : Nat)
  /-- The tick at a place is published, if all its calls have ended. -/
  | finish (place : Nat)
  /-- The registry answers the refresh at a place. -/
  | answer (place : Nat)
  /-- A tick is asked for by hand. -/
  | scrape
  /-- A refresh is asked for by hand. -/
  | refresh
  /-- A pair of loops is started. -/
  | start
  /-- A pair of loops is told to stop. -/
  | stop (session : Nat)
  /-- The means of telling a pair of loops anything is given up. -/
  | drop (session : Nat)
  /-- The collector forgets which pair of loops it could tell to stop. -/
  | letGo
  /-- The registry changes. -/
  | changeRegistry (change : ρ → ρ)
  /-- The nodes take calls in another way from now on. -/
  | changeNodes (respond : String → Call → Behaviour)
  /-- A request to read is answered. -/
  | read (request : ReadRequest)
  /-- A request to write is refused. -/
  | write (request : WriteRequest)
  /-- A request to stream is refused. -/
  | stream (request : StreamRequest)

/-- Whether a move is made as time passes, without anything coming from outside. -/
def Move.isOwn {ρ : Type} : Move ρ → Bool
  | .wait _ | .settle | .fire _ | .leave _ | .finish _ => true
  | _ => false

/-- Whether a move is made without anybody asking for anything. -/
def Move.isInner {ρ : Type} : Move ρ → Bool
  | .answer _ => true
  | move => move.isOwn

/-- The pair of loops that a move tells something, and what. -/
def Move.told? {ρ : Type} : Move ρ → Option (Nat × Signal)
  | .stop session => some (session, .stopped)
  | .drop session => some (session, .dropped)
  | _ => none

/-- Whether the loop may end although its task is not under way. -/
def Loop.mayLeave (now : Nat) (loop : Loop) : Bool := loop.isDue now && loop.signal ≠ .none

/-- A tick as it was at some time. -/
structure TickAt where
  time : Nat
  tick : Tick

namespace TickAt

/-- When the last call of the tick ends. -/
def ends (early : TickAt) : Nat := early.tick.endsAt early.time

/-- The number of the tick. -/
def number (early : TickAt) : Nat := early.tick.number

/-- The pair of loops that started the tick, if one did. -/
def session (early : TickAt) : Option Nat := early.tick.session

end TickAt

namespace Run

variable {ρ : Type} [Discovery ρ]

/-- The collector once so many milliseconds have passed, or fewer if something is due before. -/
def pass (run : Run ρ) (millis : Nat) : Run ρ :=
  { run with
    now := match run.nextTime? with
      | none => run.now + millis
      | some time => min (run.now + millis) time }

/-- The loop that a move lets begin its task. -/
def fired? (run : Run ρ) : Move ρ → Option Loop
  | .fire place => run.loops[place]?.filter (·.isDue run.now)
  | _ => none

/-- The tick that a move begins, with all its calls under way. -/
def begun? (run : Run ρ) (move : Move ρ) : Option TickAt :=
  match move with
  | .scrape => some ⟨run.now, run.nextTick none⟩
  | move =>
    match run.fired? move with
    | some loop =>
      if loop.task = .scrape then some ⟨run.now, run.nextTick (some loop.session)⟩ else none
    | none => none

/-- The tick that a move publishes, with all its calls ended. -/
def ended? (run : Run ρ) : Move ρ → Option TickAt
  | .finish place => (run.ticks[place]?.filter Tick.isOver).map (⟨run.now, ·⟩)
  | _ => none

/-- The collector after a move. -/
def move (run : Run ρ) (move : Move ρ) : Run ρ :=
  match move with
  | .wait millis => run.pass millis
  | .settle => run.settleCalls
  | .fire place =>
    match run.fired? (.fire place) with
    | some loop => { run with loops := run.loops.eraseIdx place }.fire loop
    | none => run
  | .leave place =>
    match run.loops[place]?.filter (·.mayLeave run.now) with
    | some _ => { run with loops := run.loops.eraseIdx place }
    | none => run
  | .finish place =>
    match run.ended? (.finish place) with
    | some late => { run with ticks := run.ticks.eraseIdx place }.endTick late.tick
    | none => run
  | .answer place => run.answer place
  | .scrape => run.beginTick none
  | .refresh =>
    if Discovery.prompt ρ then run.refreshNow.1
    else { run with rescans := run.rescans ++ [{ session := none }] }
  | .start => run.arm
  | .stop session => run.tell session .stopped
  | .drop session => run.tell session .dropped
  | .letGo => { run with handle := none }
  | .changeRegistry change => run.withRegistry change
  | .changeNodes respond => { run with fleet := { run.fleet with respond } }
  -- `Run.read`, `refuseWrite` and `refuseStream` come to an answer and keep nothing
  | .read _ | .write _ | .stream _ => run

/-- The collector after some moves. -/
def play (run : Run ρ) (moves : List (Move ρ)) : Run ρ := moves.foldl move run

/-- A move and the collector just before it. -/
structure Moment (ρ : Type) where
  run : Run ρ
  move : Move ρ

/-- The collector just after the move. -/
def Moment.after (moment : Moment ρ) : Run ρ := moment.run.move moment.move

/-- The moments of a course, one for each move. -/
def course (run : Run ρ) : List (Move ρ) → List (Moment ρ)
  | [] => []
  | move :: moves => ⟨run, move⟩ :: (run.move move).course moves

/-- The ticks that begin in a course, in the order of their beginnings. -/
def begunTicks (run : Run ρ) (moves : List (Move ρ)) : List TickAt :=
  (run.course moves).filterMap fun moment => moment.run.begun? moment.move

/-- The ticks that are published in a course, in the order of their ends. -/
def endedTicks (run : Run ρ) (moves : List (Move ρ)) : List TickAt :=
  (run.course moves).filterMap fun moment => moment.run.ended? moment.move

/-- The collector as it is when it has been built : nothing is published, nothing under way, and
no loop has been started. -/
def fresh (run : Run ρ) : Run ρ :=
  { run with
    published := .ofWindow run.config.window
    ticks := []
    rescans := []
    loops := []
    ticksBegun := 0
    sessions := 0
    handle := none
    log := [] }

/-- A collector that was built starts from nothing, with a configuration that has no fault. -/
theorem fresh_of_build {config : CollectorConfig} {registry : Option ρ} {fleet : Option Fleet}
    {run : Run ρ} {scan : Scan} (h : build config registry fleet = .ok (run, scan)) :
    run.fresh = run ∧ run.config.fault? = none := by
  unfold build at h
  split at h
  · exact absurd h nofun
  · rename_i hfault
    split at h
    · exact absurd h nofun
    · split at h
      · exact absurd h nofun
      · split at h
        · exact absurd h nofun
        · obtain ⟨rfl, -⟩ := Prod.mk.inj (Except.ok.inj h)
          exact ⟨rfl, hfault⟩

/-! ## Courses in parts -/

@[simp] theorem play_nil (run : Run ρ) : run.play [] = run := rfl

@[simp] theorem play_cons (run : Run ρ) (move : Move ρ) (moves : List (Move ρ)) :
    run.play (move :: moves) = (run.move move).play moves := rfl

theorem play_append (run : Run ρ) (moves more : List (Move ρ)) :
    run.play (moves ++ more) = (run.play moves).play more :=
  List.foldl_append

/-- A course in two parts, the second from where the first has led to. -/
theorem course_append (run : Run ρ) (moves more : List (Move ρ)) :
    run.course (moves ++ more) = run.course moves ++ (run.play moves).course more := by
  induction moves generalizing run with
  | nil => rfl
  | cons move moves ih => rw [List.cons_append, course, ih]; rfl

@[simp] theorem begunTicks_nil (run : Run ρ) : run.begunTicks [] = [] := rfl

@[simp] theorem endedTicks_nil (run : Run ρ) : run.endedTicks [] = [] := rfl

/-- The ticks that begin in a course of two parts. -/
theorem begunTicks_append (run : Run ρ) (moves more : List (Move ρ)) :
    run.begunTicks (moves ++ more) = run.begunTicks moves ++ (run.play moves).begunTicks more := by
  rw [begunTicks, course_append, List.filterMap_append]
  rfl

/-- The ticks that are published in a course of two parts. -/
theorem endedTicks_append (run : Run ρ) (moves more : List (Move ρ)) :
    run.endedTicks (moves ++ more) = run.endedTicks moves ++ (run.play moves).endedTicks more := by
  rw [endedTicks, course_append, List.filterMap_append]
  rfl

theorem begunTicks_singleton (run : Run ρ) (move : Move ρ) :
    run.begunTicks [move] = (run.begun? move).toList := by
  unfold begunTicks course course
  cases hbegun : run.begun? move with
  | none => exact List.filterMap_cons_none hbegun
  | some early => exact List.filterMap_cons_some hbegun

theorem endedTicks_singleton (run : Run ρ) (move : Move ρ) :
    run.endedTicks [move] = (run.ended? move).toList := by
  unfold endedTicks course course
  cases hended : run.ended? move with
  | none => exact List.filterMap_cons_none hended
  | some late => exact List.filterMap_cons_some hended

/-- A moment of a course is where the moves before it have led to. -/
theorem exists_play_of_mem_course {run : Run ρ} {moves : List (Move ρ)} {moment : Moment ρ}
    (h : moment ∈ run.course moves) :
    ∃ before after, moves = before ++ moment.move :: after ∧ moment.run = run.play before := by
  induction moves generalizing run with
  | nil => exact absurd h List.not_mem_nil
  | cons move moves ih =>
    rcases List.mem_cons.1 h with rfl | h
    · exact ⟨[], moves, rfl, rfl⟩
    · obtain ⟨before, after, rfl, hrun⟩ := ih h
      exact ⟨move :: before, after, rfl, hrun⟩

/-! ## What a move does -/

/-- The pairs of loops that have a refresh under way. -/
def rescanners (run : Run ρ) : List Nat := run.rescans.filterMap (·.session)

/-- The collectors differ at most in the registry, the directory, the refreshes that were asked for
by hand and the answers to the others, the nodes, the log and the pair of loops that could be told
to stop. -/
structure Alike (run other : Run ρ) : Prop where
  config : other.config = run.config := by rfl
  published : other.published = run.published := by rfl
  now : other.now = run.now := by rfl
  epoch : other.epoch = run.epoch := by rfl
  ticks : other.ticks = run.ticks := by rfl
  rescanners : other.rescanners = run.rescanners := by rfl
  loops : other.loops = run.loops := by rfl
  ticksBegun : other.ticksBegun = run.ticksBegun := by rfl
  sessions : other.sessions = run.sessions := by rfl
  goesOn : other.goesOn = run.goesOn := by rfl

/-- What one move comes to : the loop that began its task, the tick that began, the tick that
was published, the pair of loops that was told something, and the collector afterwards. -/
inductive Step (run : Run ρ) :
    Option Loop → Option TickAt → Option TickAt → Option (Nat × Signal) → Run ρ → Prop
  | same {next : Run ρ} (h : Alike run next) : Step run none none none none next
  | pass {next : Run ρ} (time : Nat) (hnow : run.now ≤ time) (hclear : run.ClearUntil time)
    (h : Alike { run with now := time } next) : Step run none none none none next
  | settle {next : Run ρ}
    (h : Alike
      { run with ticks := run.ticks.map (Tick.settle run.now (stamp run.epoch run.now)) } next) :
    Step run none none none none next
  | scrape {next : Run ρ}
    (h : Alike
      { run with
        ticks := run.ticks ++ [run.nextTick none]
        ticksBegun := run.ticksBegun + 1 } next) :
    Step run none (some ⟨run.now, run.nextTick none⟩) none none next
  | fireScrape {next : Run ρ} {before after : List Loop} {loop : Loop}
    (hloops : run.loops = before ++ loop :: after) (hdue : loop.isDue run.now)
    (htask : loop.task = .scrape)
    (h : Alike
      { run with
        loops := before ++ after ++ [loop.begun run.now]
        ticks := run.ticks ++ [run.nextTick (some loop.session)]
        ticksBegun := run.ticksBegun + 1 } next) :
    Step run (some loop) (some ⟨run.now, run.nextTick (some loop.session)⟩) none none next
  | fireRefresh {next : Run ρ} {before after : List Loop} {loop : Loop}
    (hloops : run.loops = before ++ loop :: after) (hdue : loop.isDue run.now)
    (htask : loop.task = .refresh)
    (h : Alike
      { run with
        loops := before ++ after ++ ((loop.begun run.now).free run.now).toList } next) :
    Step run (some loop) none none none next
  | fireRescan {next : Run ρ} {before after : List Loop} {loop : Loop}
    (hslow : Discovery.prompt ρ = false) (hloops : run.loops = before ++ loop :: after)
    (hdue : loop.isDue run.now) (htask : loop.task = .refresh)
    (h : Alike
      { run with
        loops := before ++ after ++ [loop.begun run.now]
        rescans := run.rescans ++ [{ session := some loop.session }] } next) :
    Step run (some loop) none none none next
  | endRescan {next : Run ρ} {before after : List Rescan} {rescan : Rescan} {session : Nat}
    (hrescans : run.rescans = before ++ rescan :: after) (hsession : rescan.session = some session)
    (h : Alike
      { run with
        loops := (run.freeLoop session .refresh).loops
        rescans := before ++ after } next) :
    Step run none none none none next
  | leave {next : Run ρ} {before after : List Loop} {loop : Loop}
    (hloops : run.loops = before ++ loop :: after) (hdue : loop.isDue run.now)
    (htold : loop.signal ≠ .none) (h : Alike { run with loops := before ++ after } next) :
    Step run none none none none next
  | finish {next : Run ρ} {before after : List Tick} {tick : Tick}
    (hticks : run.ticks = before ++ tick :: after) (hover : tick.isOver)
    (h : Alike
      { run with
        published := run.published.publish tick.batch
        loops := run.loopsAfter .scrape tick.session
        ticks := before ++ after } next) :
    Step run none none (some ⟨run.now, tick⟩) none next
  | arm {next : Run ρ} (h : Alike run.arm next) : Step run none none none none next
  | tell {next : Run ρ} (session : Nat) (signal : Signal) (hsignal : signal ≠ .none)
    (h : Alike (run.tell session signal) next) :
    Step run none none none (some (session, signal)) next

/-- The entry at a place splits the list. -/
theorem exists_split_of_getElem? {α : Type} {entries : List α} {place : Nat} {entry : α}
    (h : entries[place]? = some entry) :
    ∃ before after, entries = before ++ entry :: after ∧
      entries.eraseIdx place = before ++ after := by
  obtain ⟨hplace, rfl⟩ := List.getElem?_eq_some_iff.1 h
  refine ⟨entries.take place, entries.drop (place + 1), ?_, ?_⟩
  · rw [List.getElem_cons_drop, List.take_append_drop]
  · exact List.eraseIdx_eq_take_drop_succ _ _

/-- Time passes up to what is due next, so that no deadline is missed. -/
theorem step_pass (run : Run ρ) (millis : Nat) :
    Step run none none none none (run.pass millis) := by
  unfold pass
  cases hnext : run.nextTime? with
  | none =>
    exact .pass _ (Nat.le_add_right _ _) (clearUntil_of_nextTime?_none hnext _) {}
  | some time =>
    have hnow := now_le_of_nextTime? hnext
    refine .pass _ (Nat.le_min.2 ⟨Nat.le_add_right _ _, hnow⟩)
      (clearUntil_of_nextTime? fun next h => ?_) {}
    obtain rfl := Option.some.inj (hnext.symm.trans h)
    exact Nat.min_le_right _ _

/-- What begins its task is a loop that is due. -/
theorem fired?_eq_some_iff {run : Run ρ} {move : Move ρ} {loop : Loop} :
    run.fired? move = some loop ↔
      ∃ place, move = .fire place ∧ run.loops[place]? = some loop ∧ loop.isDue run.now := by
  cases move <;> simp [fired?, Option.filter_eq_some_iff]

/-- A loop that is due begins its task, and waits for it unless the task is done at once. -/
theorem step_fire (run : Run ρ) (place : Nat) :
    Step run (run.fired? (.fire place)) (run.begun? (.fire place)) none none
      (run.move (.fire place)) := by
  cases hfired : run.fired? (.fire place) with
  | none =>
    simp only [begun?, move, hfired]
    exact .same {}
  | some loop =>
    obtain ⟨_, hplace, hloop, hdue⟩ := fired?_eq_some_iff.1 hfired
    obtain rfl := Move.fire.inj hplace
    obtain ⟨before, after, hloops, herase⟩ := exists_split_of_getElem? hloop
    simp only [begun?, move, hfired, herase]
    cases htask : loop.task with
    | scrape =>
      rw [if_pos rfl, fire_scrape_eq _ htask, beginTick_eq]
      exact .fireScrape hloops hdue htask {}
    | refresh =>
      rw [if_neg nofun]
      cases hprompt : Discovery.prompt ρ with
      | true =>
        obtain ⟨log, hlog⟩ := fire_refresh_eq { run with loops := before ++ after } hprompt htask
        rw [hlog]
        exact .fireRefresh hloops hdue htask {}
      | false =>
        rw [fire_rescan_eq _ hprompt htask]
        exact .fireRescan hprompt hloops hdue htask {}

/-- A loop ends in its turn only if it is due and has been told something. -/
theorem step_leave (run : Run ρ) (place : Nat) :
    Step run none none none none (run.move (.leave place)) := by
  cases hleaves : run.loops[place]?.filter (·.mayLeave run.now) with
  | none =>
    simp only [move, hleaves]
    exact .same {}
  | some loop =>
    obtain ⟨hplace, hleave⟩ := Option.filter_eq_some_iff.1 hleaves
    obtain ⟨before, after, hloops, herase⟩ := exists_split_of_getElem? hplace
    obtain ⟨hdue, htold⟩ := Bool.and_eq_true_iff.1 hleave
    simp only [move, hleaves, herase]
    exact .leave hloops hdue (of_decide_eq_true htold) {}

/-- An answer that leaves another one to be waited for leaves the refresh with its pair. -/
theorem rescanners_set {run : Run ρ} {place : Nat} {rescan : Rescan}
    (hrescan : run.rescans[place]? = some rescan) (survey : Survey) :
    { run with rescans := run.rescans.set place { rescan with survey } }.rescanners =
      run.rescanners := by
  obtain ⟨hplace, rfl⟩ := List.getElem?_eq_some_iff.1 hrescan
  have hself : run.rescans =
      run.rescans.take place ++ run.rescans[place] :: run.rescans.drop (place + 1) := by
    rw [List.getElem_cons_drop, List.take_append_drop]
  have hset : run.rescans.set place { run.rescans[place] with survey } =
      run.rescans.take place ++ { run.rescans[place] with survey } ::
        run.rescans.drop (place + 1) := by
    rw [List.set_eq_take_append_cons_drop, if_pos hplace]
  have hrescanners := congrArg (List.filterMap Rescan.session) hself
  rw [List.filterMap_append, List.filterMap_cons] at hrescanners
  rw [rescanners, rescanners, hrescanners, hset, List.filterMap_append, List.filterMap_cons]

/-- An answer of the registry ends a refresh or leaves another answer to be waited for. -/
theorem step_answer (run : Run ρ) (place : Nat) :
    Step run none none none none (run.answer place) := by
  cases hrescan : run.rescans[place]? with
  | none =>
    rw [run.answer_eq_of_none hrescan]
    exact .same {}
  | some rescan =>
    cases hanswer : rescan.survey.answer (Discovery.view run.registry) with
    | waits survey =>
      obtain ⟨log, hlog⟩ := run.answer_eq_of_waits hrescan hanswer
      rw [hlog]
      exact .same { rescanners := rescanners_set hrescan survey }
    | done result =>
      obtain ⟨log, hlog⟩ := run.answer_eq_of_done hrescan hanswer
      obtain ⟨before, after, hrescans, herase⟩ := exists_split_of_getElem? hrescan
      rw [hlog, herase]
      cases hsession : rescan.session with
      | none => exact .same { rescanners := by simp [rescanners, hrescans, hsession] }
      | some session => exact .endRescan hrescans hsession {}

/-- A tick is published once all its calls have ended, and the loop that waited for it is free. -/
theorem step_finish (run : Run ρ) (place : Nat) :
    Step run none none (run.ended? (.finish place)) none (run.move (.finish place)) := by
  cases htick : run.ticks[place]?.filter Tick.isOver with
  | none =>
    simp only [ended?, move, htick, Option.map_none]
    exact .same {}
  | some tick =>
    obtain ⟨hplace, hover⟩ := Option.filter_eq_some_iff.1 htick
    obtain ⟨before, after, hticks, herase⟩ := exists_split_of_getElem? hplace
    simp only [ended?, move, htick, Option.map_some, herase, endTick_eq]
    have hloops : { run with ticks := before ++ after }.loopsAfter .scrape tick.session =
        run.loopsAfter .scrape tick.session := by
      cases tick.session <;> rfl
    rw [hloops]
    exact .finish hticks hover {}

/-- What a move does. -/
theorem step_move (run : Run ρ) (move : Move ρ) :
    Step run (run.fired? move) (run.begun? move) (run.ended? move) move.told? (run.move move) := by
  cases move with
  | wait millis => exact run.step_pass millis
  | settle =>
    obtain ⟨log, hlog⟩ := run.settleCalls_eq
    refine .settle ?_
    simp only [Run.move, hlog]
    exact {}
  | fire place => exact run.step_fire place
  | leave place => exact run.step_leave place
  | finish place => exact run.step_finish place
  | answer place => exact run.step_answer place
  | scrape =>
    refine .scrape ?_
    simp only [Run.move, beginTick_eq]
    exact {}
  | refresh =>
    refine .same ?_
    obtain ⟨log, hlog⟩ := run.refreshNow_eq
    simp only [Run.move]
    split
    · rw [hlog]
      exact {}
    · exact { rescanners := by simp [rescanners] }
  | start => exact .arm {}
  | stop session => exact .tell session .stopped nofun {}
  | drop session => exact .tell session .dropped nofun {}
  | letGo => exact .same {}
  | changeRegistry change => exact .same {}
  | changeNodes respond => exact .same {}
  | read | write | stream => exact .same {}

/-! ### What a move makes of a loop -/

/-- What a move at `now` may make of a loop. -/
inductive Becomes (now : Nat) (fired : Option Loop) (late : Option TickAt)
    (told : Option (Nat × Signal)) (origin : Loop) : Loop → Prop
  | keep : Becomes now fired late told origin origin
  /-- It begins its task. -/
  | begin (hfired : fired = some origin) (hdue : origin.isDue now) :
    Becomes now fired late told origin (origin.begun now)
  /-- It begins its task, which is over at once. -/
  | skip {loop : Loop} (hfired : fired = some origin) (hdue : origin.isDue now)
    (hfree : (origin.begun now).free now = some loop) : Becomes now fired late told origin loop
  /-- Its task is over. -/
  | free {loop : Loop} (hbusy : origin.busy)
    (hlate : origin.task = .scrape → ∃ tick, late = some tick ∧ tick.session = some origin.session)
    (hfree : origin.free now = some loop) : Becomes now fired late told origin loop
  /-- It is told something. -/
  | hear {loop : Loop} {signal : Signal} (htold : told = some (origin.session, signal))
    (htell : origin.tell now signal = some loop) : Becomes now fired late told origin loop

namespace Becomes

variable {now : Nat} {fired : Option Loop} {late : Option TickAt} {told : Option (Nat × Signal)}
  {origin loop : Loop}

/-- What becomes of a loop has its pair and its task. -/
theorem same (h : Becomes now fired late told origin loop) :
    origin.session = loop.session ∧ origin.task = loop.task := by
  cases h with
  | keep | begin => exact ⟨rfl, rfl⟩
  | skip _ _ hfree | free _ _ hfree =>
    obtain ⟨rfl, -⟩ := Loop.free_eq_some hfree
    exact ⟨rfl, rfl⟩
  | hear _ htell =>
    obtain ⟨rfl, -⟩ := Loop.tell_eq_some htell
    exact ⟨rfl, rfl⟩

/-- A loop that has been told to stop stays so, and stays as it was if it waits for no task. -/
theorem of_stopped (h : Becomes now fired late told origin loop) (hstopped : origin.signal = .stopped) :
    loop.signal = .stopped ∧ (loop.busy = false → loop = origin) := by
  have hends : ∀ {before : Loop}, before.signal = .stopped → before.free now ≠ some loop := by
    intro before hsignal hfree
    have hgoes := (Loop.free_eq_some hfree).2
    simp [hsignal] at hgoes
  cases h with
  | keep => exact ⟨hstopped, fun _ => rfl⟩
  | begin => exact ⟨hstopped, nofun⟩
  | skip _ _ hfree => exact absurd hfree (hends hstopped)
  | free _ _ hfree => exact absurd hfree (hends hstopped)
  | hear _ htell =>
    obtain ⟨rfl, -⟩ := Loop.tell_eq_some htell
    rw [Loop.note_of_stopped hstopped]
    exact ⟨hstopped, fun _ => rfl⟩

end Becomes

/-- Every loop was there before the move, or has just been started. -/
theorem Step.origin {run next : Run ρ} {fired : Option Loop} {early late : Option TickAt}
    {told : Option (Nat × Signal)} (h : Step run fired early late told next) {loop : Loop}
    (hloop : loop ∈ next.loops) :
    (∃ origin ∈ run.loops, Becomes run.now fired late told origin loop) ∨
      loop.session = run.sessions ∧ next.sessions = run.sessions + 1 := by
  have hkept : ∀ {before after : List Loop} {other : Loop}, run.loops = before ++ other :: after →
      loop ∈ before ++ after → loop ∈ run.loops := by
    intro before after other hloops hmem
    rw [hloops]
    rcases List.mem_append.1 hmem with hmem | hmem
    · exact List.mem_append_left _ hmem
    · exact List.mem_append_right _ (List.mem_cons_of_mem _ hmem)
  cases h with
  | same hnext | pass _ _ _ hnext | settle hnext | scrape hnext =>
    exact Or.inl ⟨loop, hnext.loops ▸ hloop, .keep⟩
  | @fireScrape _ _ _ due hloops hdue _ hnext | @fireRescan _ _ _ due _ hloops hdue _ hnext =>
    rw [hnext.loops] at hloop
    rcases List.mem_append.1 hloop with hmem | hmem
    · exact Or.inl ⟨loop, hkept hloops hmem, .keep⟩
    · obtain rfl := List.mem_singleton.1 hmem
      exact Or.inl ⟨due, by simp [hloops], .begin rfl hdue⟩
  | @fireRefresh _ _ _ due hloops hdue _ hnext =>
    rw [hnext.loops] at hloop
    rcases List.mem_append.1 hloop with hmem | hmem
    · exact Or.inl ⟨loop, hkept hloops hmem, .keep⟩
    · exact Or.inl ⟨due, by simp [hloops], .skip rfl hdue (Option.mem_toList.1 hmem)⟩
  | leave hloops _ _ hnext =>
    rw [hnext.loops] at hloop
    exact Or.inl ⟨loop, hkept hloops hloop, .keep⟩
  | endRescan _ _ hnext =>
    rcases mem_freeLoop.1 (hnext.loops ▸ hloop) with ⟨hmem, -⟩ | ⟨waiting, hwaiting, hown, hfree⟩
    · exact Or.inl ⟨loop, hmem, .keep⟩
    · refine Or.inl ⟨waiting, hwaiting, .free hown.2.2 (fun htask => ?_) hfree⟩
      exact absurd (htask.symm.trans hown.2.1) nofun
  | @finish _ _ _ tick _ _ hnext =>
    rw [hnext.loops] at hloop
    cases howner : tick.session with
    | none =>
      rw [howner] at hloop
      exact Or.inl ⟨loop, hloop, .keep⟩
    | some owner =>
      rw [howner] at hloop
      rcases mem_freeLoop.1 hloop with ⟨hmem, -⟩ | ⟨waiting, hwaiting, hown, hfree⟩
      · exact Or.inl ⟨loop, hmem, .keep⟩
      · refine Or.inl ⟨waiting, hwaiting, .free hown.2.2 (fun _ => ⟨_, rfl, ?_⟩) hfree⟩
        rw [hown.1]
        exact howner
  | arm hnext =>
    rcases mem_arm (hnext.loops ▸ hloop) with hmem | ⟨hsession, -⟩
    · exact Or.inl ⟨loop, hmem, .keep⟩
    · exact Or.inr ⟨hsession, hnext.sessions⟩
  | tell session signal _ hnext =>
    rcases mem_tell.1 (hnext.loops ▸ hloop) with ⟨hmem, -⟩ | ⟨waiting, hwaiting, rfl, htell⟩
    · exact Or.inl ⟨loop, hmem, .keep⟩
    · exact Or.inl ⟨waiting, hwaiting, .hear rfl htell⟩

/-! ## What a pair of loops begins -/

/-- Whether the move lets the loop of a pair that has a task begin it. -/
def begins (session : Nat) (task : Task) (run : Run ρ) (move : Move ρ) : Bool :=
  (run.fired? move).any fun loop => loop.session = session && loop.task = task

/-- The moments of a course at which a pair begins a task. -/
def beginnings (session : Nat) (task : Task) (run : Run ρ) (moves : List (Move ρ)) :
    List (Moment ρ) :=
  (run.course moves).filter fun moment => moment.run.begins session task moment.move

/-- A loop of the pair begins its task where one of them is due and takes its turn. -/
theorem begins_iff {session : Nat} {task : Task} {run : Run ρ} {move : Move ρ} :
    run.begins session task move ↔
      ∃ loop, run.fired? move = some loop ∧ loop.session = session ∧ loop.task = task := by
  unfold begins
  cases run.fired? move <;> simp

/-- The beginnings in a course of two parts. -/
theorem beginnings_append (session : Nat) (task : Task) (run : Run ρ) (moves more : List (Move ρ)) :
    run.beginnings session task (moves ++ more) =
      run.beginnings session task moves ++ (run.play moves).beginnings session task more := by
  rw [beginnings, course_append, List.filter_append]
  rfl

theorem beginnings_singleton (session : Nat) (task : Task) (run : Run ρ) (move : Move ρ) :
    run.beginnings session task [move] =
      if run.begins session task move then [⟨run, move⟩] else [] := by
  cases hbegins : run.begins session task move with
  | false => exact List.filter_cons_of_neg (by simp [hbegins])
  | true => exact List.filter_cons_of_pos hbegins

end Run

end Vitals
