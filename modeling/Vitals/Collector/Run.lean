import Vitals.Collector.Config
import Vitals.Collector.Tick
import Vitals.Directory

/-!
# A collector at work

A collector in the course of time, which passes in whole milliseconds and only when nothing is
left to do at the present moment. `Run.advance` goes from one moment at which something happens
to the next (`Run.nextTime?`); at each, calls end, loops whose time has come begin a tick or a
refresh of the directory, ticks whose calls have all ended are published, and the registry
answers (`Run.instant`).

A started collector has a pair of loops. A loop is due at its deadline; the next deadline is
one interval later, counted from the deadline, or from the present if the loop is more than
`slack` late. A loop waits for its tick or its refresh before it can be due again.

A loop may be told to stop, or nobody may be left to tell it anything. It looks whether it has
been told to stop before it waits for its deadline, and while it waits it looks out for both at
once: at a moment at which it is due and has been told something, either may come first.
-/

namespace Vitals

/-- What a loop does when it is due. -/
inductive Task where
  | scrape | refresh
deriving Repr, DecidableEq, Inhabited

/-- What a loop has been told. -/
inductive Signal where
  | none
  /-- To stop. -/
  | stopped
  /-- Nothing, and nobody is left to tell it anything. -/
  | dropped
deriving Repr, DecidableEq, Inhabited

/-- A loop that repeats its task. -/
structure Loop where
  /-- The pair that the loop belongs to. -/
  session : Nat
  task : Task
  interval : Nat
  deadline : Nat
  /-- Whether it has only been started, and looks whether it has been told to stop before
  anything else. -/
  fresh : Bool := false
  /-- Whether it waits for its tick or its refresh to end. -/
  busy : Bool := false
  signal : Signal := .none
deriving Repr, DecidableEq, Inhabited

namespace Loop

/-- By how many milliseconds a loop may be late without its deadlines being moved. -/
def slack : Nat := 5

/-- Whether the loop may begin its task. -/
def isDue (now : Nat) (loop : Loop) : Bool := !loop.busy && loop.deadline ≤ now

/-- The loop with its next deadline, having begun its task at `now`. -/
def begun (now : Nat) (loop : Loop) : Loop :=
  { loop with
    deadline := (if loop.deadline + slack < now then now else loop.deadline) + loop.interval
    fresh := false
    busy := true }

/-- The loop once its task is over. One that has been told to stop ends; one that nobody can tell
anything ends as well, unless it is due. -/
def free (now : Nat) (loop : Loop) : Option Loop :=
  match loop.signal with
  | .none => some { loop with busy := false }
  | .stopped => none
  | .dropped => if loop.deadline ≤ now then some { loop with busy := false } else none

/-- The loop with note of what it has been told. -/
def note (signal : Signal) (loop : Loop) : Loop :=
  { loop with signal := if loop.signal = .stopped then .stopped else signal }

/-- The loop after it has been told something. It takes note if it waits for its task to end; if
not, it ends at once, unless it is due: then it may begin its task as well as end. -/
def tell (now : Nat) (signal : Signal) (loop : Loop) : Option Loop :=
  let told := loop.note signal
  if loop.busy then some told
  else if loop.fresh ∧ signal = .stopped then none
  else if loop.deadline ≤ now then some told
  else none

end Loop

/-- Something that happened. -/
inductive Event where
  /-- A tick began, by hand or by a pair of loops. -/
  | tickBegan (number : Nat) (session : Option Nat)
  /-- A tick called a node. -/
  | called (number : Nat) (call : Call) (address : String)
  /-- A tick ended, and its batch was published. -/
  | tickEnded (number : Nat) (report : TickReport) (batch : Batch)
  /-- The directory was refreshed, or kept as it was. -/
  | refreshed (result : Except RegistryFault Nat)
  | warned (warning : Warning)
deriving Inhabited

/-- Something that happened, and when. -/
structure Entry where
  time : Nat
  event : Event
deriving Inhabited

/-- A refresh that is under way. -/
structure Rescan where
  /-- The pair of loops that began it; none for one that was asked for by hand. -/
  session : Option Nat
  survey : Survey := .listing
deriving Inhabited

/-- A collector in the course of time, over a registry whose state is a `ρ`. -/
structure Run (ρ : Type) where
  config : CollectorConfig
  registry : ρ
  directory : Directory := {}
  published : Published
  fleet : Fleet
  /-- The milliseconds that have passed. -/
  now : Nat := 0
  /-- The milliseconds of the calendar when the run began. -/
  epoch : Nat := 0
  /-- The ticks under way, in the order of their starts. -/
  ticks : List Tick := []
  /-- The refreshes that wait for an answer, in the order of their starts. -/
  rescans : List Rescan := []
  /-- The loops, in the order in which they got their deadlines. -/
  loops : List Loop := []
  /-- How many ticks have begun. -/
  ticksBegun : Nat := 0
  /-- How many pairs of loops have been started. -/
  sessions : Nat := 0
  /-- The pair of loops that can be told to stop. -/
  handle : Option Nat := none
  /-- What has happened, the latest first. -/
  log : List Entry := []
  /-- Whether a loop that has been told something and is due goes on once more: both courses are
  open to it, and this says which one it takes when the collector is left to itself. -/
  goesOn : Bool := true
deriving Inhabited

namespace Run

variable {ρ : Type} [Discovery ρ]

/-- Takes note of what happened. -/
def note (run : Run ρ) (event : Event) : Run ρ := { run with log := ⟨run.now, event⟩ :: run.log }

/-- Takes note of warnings. -/
def warn (run : Run ρ) (warnings : List Warning) : Run ρ :=
  warnings.foldl (fun run warning => run.note (.warned warning)) run

/-- The present in seconds of the calendar, as snapshots say it. -/
def timestamp (run : Run ρ) : UInt64 := UInt64.ofNat ((run.epoch + run.now) / 1000)

/-- What has happened since an earlier state of the run, the earliest first. -/
def eventsSince (run earlier : Run ρ) : List Entry :=
  (run.log.take (run.log.length - earlier.log.length)).reverse

/-- The warnings among events. -/
def warnings (events : List Entry) : List Warning :=
  events.filterMap fun
    | ⟨_, .warned warning⟩ => some warning
    | _ => none

/-- The calls among events, with their addresses. -/
def calls (events : List Entry) : List (Call × String) :=
  events.filterMap fun
    | ⟨_, .called _ call address⟩ => some (call, address)
    | _ => none

/-! ## Ticks and refreshes -/

/-- Calls a node on behalf of tick `number`. -/
def callTarget (number : Nat) (state : Run ρ × List PendingCall) (target : Target) :
    Run ρ × List PendingCall :=
  let (run, pending) := state
  let address := target.node.address
  let fleet := run.fleet.noteCall address
  let (delay, ending) :=
    (fleet.respond address target.call).settle run.config.callTimeout (fleet.callsTo address)
  ({ run with fleet }.note (.called number target.call address),
    pending ++ [⟨target, run.now + delay, ending⟩])

/-- Begins a tick over the directory as it is. -/
def beginTick (run : Run ρ) (session : Option Nat) : Run ρ :=
  let number := run.ticksBegun
  let run := { run with ticksBegun := number + 1 }.note (.tickBegan number session)
  let targets := eligibleTargets run.fleet.protocol run.directory.services
  let (run, pending) := targets.foldl (callTarget number) (run, [])
  { run with ticks := run.ticks ++ [⟨number, session, targets.length, pending, []⟩] }

/-- Refreshes the directory from a registry that answers at once. -/
def refreshNow (run : Run ρ) : Run ρ × Except RegistryFault Nat :=
  let (scan, directory) := run.directory.refresh (Discovery.view run.registry)
  let count := scan.map (·.services.length)
  let warnings := match scan with
    | .ok scan => scan.warnings
    | .error _ => []
  ({ run with directory }.warn warnings |>.note (.refreshed count), count)

/-! ## One moment -/

/-- Takes in the calls that have ended. -/
def settleCalls (run : Run ρ) : Run ρ :=
  let ticks := run.ticks.map (Tick.settle run.now run.timestamp)
  run.ticks.foldl (fun run tick => run.warn (tick.warnings run.now)) { run with ticks }

/-- Lets a loop begin its task. A refresh is over at once if the registry answers at once. -/
def fire (run : Run ρ) (loop : Loop) : Run ρ :=
  let next := loop.begun run.now
  match loop.task with
  | .scrape => { run with loops := run.loops ++ [next] }.beginTick (some loop.session)
  | .refresh =>
    if Discovery.prompt ρ then
      let (run, result) :=
        { run with loops := run.loops ++ (next.free run.now).toList }.refreshNow
      match result with
      | .ok _ => run
      | .error fault => run.warn [.refresh fault]
    else
      { run with
        loops := run.loops ++ [next]
        rescans := run.rescans ++ [{ session := some loop.session }] }

/-- Lets a loop that is due begin its task, or end if it has been told something. -/
def proceed (run : Run ρ) (loop : Loop) : Run ρ :=
  if loop.signal = .none ∨ run.goesOn then run.fire loop else run

/-- Lets every loop that is due proceed. -/
def fireLoops (run : Run ρ) : Run ρ :=
  let due := run.loops.filter (·.isDue run.now)
  due.foldl proceed { run with loops := run.loops.filter (!·.isDue run.now) }

/-- Frees the loop of a pair that waited for its task, or ends it. -/
def freeLoop (run : Run ρ) (session : Nat) (task : Task) : Run ρ :=
  { run with
    loops := run.loops.filterMap fun loop =>
      if loop.session = session ∧ loop.task = task ∧ loop.busy then loop.free run.now
      else some loop }

/-- Publishes the batch of a tick that is over. -/
def endTick (run : Run ρ) (tick : Tick) : Run ρ :=
  let run := { run with published := run.published.publish tick.batch }.note
    (.tickEnded tick.number tick.report tick.batch)
  match tick.session with
  | some session => run.freeLoop session .scrape
  | none => run

/-- Publishes the batches of the ticks that are over. -/
def endTicks (run : Run ρ) : Run ρ :=
  let ended := run.ticks.filter Tick.isOver
  ended.foldl endTick { run with ticks := run.ticks.filter (!·.isOver) }

/-- Ends a refresh. -/
def endRescan (run : Run ρ) (session : Option Nat) (result : Except RegistryFault Scan) : Run ρ :=
  let count := result.map (·.services.length)
  let run := { run with directory := run.directory.adopt result }.note (.refreshed count)
  match session, result with
  | none, _ => run
  | some session, .ok _ => run.freeLoop session .refresh
  | some session, .error fault => (run.warn [.refresh fault]).freeLoop session .refresh

/-- Lets the registry answer the refresh at a place. -/
def answer (run : Run ρ) (place : Nat) : Run ρ :=
  match run.rescans[place]? with
  | none => run
  | some rescan =>
    let registry := Discovery.view run.registry
    let run := run.warn (rescan.survey.warnings registry)
    match rescan.survey.answer registry with
    | .waits survey => { run with rescans := run.rescans.set place { rescan with survey } }
    | .done result =>
      { run with rescans := run.rescans.eraseIdx place }.endRescan rescan.session result

/-- Lets the registry give so many answers, to the refreshes in the order of their starts. -/
def answers : Nat → Run ρ → Run ρ
  | 0, run => run
  | count + 1, run => answers count (run.answer 0)

/-- How many answers it takes at most until no refresh is under way. -/
def answersLeft (run : Run ρ) : Nat :=
  run.rescans.foldr
    (fun rescan count => rescan.survey.answersLeft (Discovery.view run.registry) + count) 0

/-- Lets the registry answer all that it is asked. -/
def answerAll (run : Run ρ) : Run ρ := run.answers run.answersLeft

/-- All that happens at the present moment. -/
def instant (run : Run ρ) : Run ρ := run.settleCalls.fireLoops.endTicks.answerAll

/-! ## The course of time -/

/-- The earlier of two times, where there are any. -/
def earlier? : Option Nat → Nat → Option Nat
  | none, time => some time
  | some best, time => some (min best time)

/-- When something happens next, which may be at present. -/
def nextTime? (run : Run ρ) : Option Nat :=
  let ends := run.ticks.map fun tick => (tick.pending.map (·.ends)).min?.getD run.now
  let deadlines := (run.loops.filter (!·.busy)).map (·.deadline)
  ((ends ++ deadlines).foldl earlier? none).map (max run.now)

/-- Lets time pass up to `target`, for at most so many moments at which something happens. -/
def advance (target : Nat) : Nat → Run ρ → Run ρ
  | 0, run => { run with now := max run.now target }
  | moments + 1, run =>
    match run.nextTime? with
    | none => { run with now := max run.now target }
    | some time =>
      if time ≤ target then advance target moments { run with now := time }.instant
      else { run with now := max run.now target }

/-- At so many moments at most something happens until `target` : a loop has at most one deadline
in a millisecond and is at most `slack` deadlines behind. -/
def momentsUntil (run : Run ρ) (target : Nat) : Nat :=
  16 * (target - run.now + 2) * (run.loops.length + run.ticks.length + 2)

/-- Lets time pass up to `target`. -/
def sleepUntil (run : Run ρ) (target : Nat) : Run ρ :=
  run.advance target (run.momentsUntil target)

/-- Whether a loop of a pair is left. -/
def isAtWork (session : Nat) (run : Run ρ) : Bool := run.loops.any (·.session == session)

/-- Lets time pass until no loop of a pair is left, for at most so many moments at which something
happens. -/
def join (session : Nat) : Nat → Run ρ → Run ρ
  | 0, run => run
  | moments + 1, run =>
    if run.isAtWork session then
      match run.nextTime? with
      | none => run
      | some time => join session moments { run with now := time }.instant
    else run

/-! ## What is asked of the collector -/

/-- Lets so many milliseconds pass. Whoever waits for that comes before all that happens in the
last of them. -/
def sleep (run : Run ρ) : Nat → Run ρ
  | 0 => run
  | millis + 1 => { run.sleepUntil (run.now + millis) with now := run.now + (millis + 1) }

/-- Arms a pair of loops: the first scrape is due at once, the first refresh after its
interval. -/
def arm (run : Run ρ) : Run ρ :=
  let session := run.sessions
  let scrape : Loop :=
    { session, task := .scrape, interval := run.config.scrapeInterval.millisUp
      deadline := run.now, fresh := true }
  let interval := run.config.refreshInterval.millisUp
  -- it has looked whether it has been told to stop long before it is due
  let refresh : Loop := { session, task := .refresh, interval, deadline := run.now + interval }
  { run with
    loops := run.loops ++ [scrape, refresh]
    sessions := session + 1
    handle := some session }

/-- Starts a pair of loops. -/
def start (run : Run ρ) : Run ρ := run.arm

/-- Tells the loops of a pair something. -/
def tell (run : Run ρ) (session : Nat) (signal : Signal) : Run ρ :=
  { run with
    loops := run.loops.filterMap fun loop =>
      if loop.session = session then loop.tell run.now signal else some loop }

/-- Tells the loops to stop. -/
def stop (run : Run ρ) : Run ρ :=
  match run.handle with
  | none => run
  | some session => run.tell session .stopped

/-- Gives up the means of telling the loops anything. -/
def drop (run : Run ρ) : Run ρ :=
  match run.handle with
  | none => run
  | some session => { run with handle := none }.tell session .dropped

/-- Tells the loops to stop and waits until both have ended, which takes them no longer than a
tick. -/
def shutdown (run : Run ρ) : Run ρ :=
  match run.handle with
  | none => run
  | some session =>
    let run := ({ run with handle := none }.tell session .stopped).instant
    run.join session (run.momentsUntil (run.now + run.config.callTimeout.millisUp))

/-- Scrapes by hand and waits for the end of the tick. -/
def scrape (run : Run ρ) : Run ρ × TickReport :=
  let number := run.ticksBegun
  let begun := run.beginTick none
  let ends := (begun.ticks.filter (·.number == number)).foldl
    (fun t tick => max t (tick.endsAt run.now)) run.now
  let after := begun.sleepUntil ends
  let report? := after.log.findSome? fun
    | ⟨_, .tickEnded n report _⟩ => if n = number then some report else none
    | _ => none
  (after, report?.getD ⟨0, 0⟩)

/-- Refreshes the directory by hand. -/
def refresh (run : Run ρ) : Run ρ × Except RegistryFault Nat := run.refreshNow

/-- Changes the registry. -/
def withRegistry (run : Run ρ) (change : ρ → ρ) : Run ρ :=
  { run with registry := change run.registry }

/-- Answers a request. -/
def read (run : Run ρ) (request : ReadRequest) : ReadResponse :=
  run.published.read run.config.effectiveMaxWindow request

/-! ## Building a collector -/

/-- A collector that works as `config` says, over the nodes of `fleet` and the services of
`registry`; one of the two may not have been given. -/
def build (config : CollectorConfig) (registry : Option ρ) (fleet : Option Fleet) :
    Except CollectorFault (Run ρ × Scan) :=
  match config.fault? with
  | some fault => .error (.config fault)
  | none =>
    match registry with
    | none => .error (.missing "registry")
    | some registry =>
      match fleet with
      | none => .error (.missing "client")
      | some fleet =>
        match Directory.refresh {} (Discovery.view registry) with
        | (.error fault, _) => .error (.initialScan fault)
        | (.ok scan, directory) =>
          .ok ({ config, registry, directory, published := .ofWindow config.window, fleet }, scan)

end Run

end Vitals
