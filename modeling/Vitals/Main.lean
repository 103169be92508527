import Std.Async.Select
import Std.Async.Signal
import Std.Time
import Vitals.Net.Connection
import Vitals.Server

/-!
# The command line

The program among the things of the operating system: its arguments and variables, files,
connections and the clock. What is done with them is decided by `Course.ofArguments` and by the
run of a collector; here they are only brought together.
-/

namespace Vitals.Program

/-! ## Surroundings -/

/-- The reason that the operating system gives. -/
def reason : IO.Error → String
  | .noFileOrDirectory .. => noSuchFile
  | .permissionDenied .. => "Permission denied (os error 13)"
  | .inappropriateType .. => "Is a directory (os error 21)"
  | .resourceBusy .. => "Address already in use (os error 98)"
  | .unsupportedOperation .. => "Cannot assign requested address (os error 99)"
  | error => toString error

/-- Reads a file. -/
def readFile (path : String) : IO FileContent := do
  try return .ok (← IO.FS.readBinFile path).toList
  catch error => return .error (reason error)

/-- Reads the files at some paths; there are no others. -/
def readFiles (paths : List String) : IO (String → FileContent) := do
  let contents ← paths.mapM fun path => return (path, ← readFile path)
  return fun path => (contents.lookup path).getD (.error noSuchFile)

/-- The variables of the environment. -/
def environment : IO (List (String × String)) := do
  let content ← readFile "/proc/self/environ"
  let text := Utf8.decodeLossy (content.toOption.getD [])
  return (text.splitOn "\x00").filterMap fun entry =>
    match entry.splitOn "=" with
    | name :: value => some (name, "=".intercalate value)
    | [] => none

/-- Learns all that has to be known, asking what is not known yet. -/
partial def learn (inquiries : Answers → List Inquiry) (known : Answers := []) : IO Answers := do
  match known.next? (inquiries known) with
  | none => return known
  | some (errands, patience) =>
    let questions := (errands.map (Connection.ask patience)).toArray
    let answers ← Std.Async.Async.block (Std.Async.Async.concurrentlyAll questions)
    learn inquiries (known ++ answers.toList)

/-- The surroundings that a command line meets, as far as it has to know them. -/
def meet (words : List String) : IO Surroundings := do
  let files ← readFiles (namedFiles words)
  let bare : Surroundings :=
    { files, environment := ← environment, network := .down, refusal := fun _ => none }
  let more := match bare.settings? words with
    | some settings => settings.registry.files
    | none => []
  let surroundings := { bare with files := ← readFiles (namedFiles words ++ more) }
  let known ← learn fun known =>
    { surroundings with network := known.network }.inquiries words
  return { surroundings with network := known.network }

/-! ## Serving -/

/-- A service at work. -/
structure Watch where
  surroundings : Surroundings
  settings : Settings
  /-- The present in milliseconds since the service started. -/
  clock : IO Nat
  /-- Waits for so many milliseconds, and says whether the service was interrupted. -/
  wait : Nat → IO Bool
  /-- The state from which requests are answered. -/
  state : IO.Ref (Run KnownRegistry)

/-- Writes warnings in lines. -/
def tell (warnings : List Warning) : IO Unit :=
  warnings.forM fun warning => do
    let details := warning.details.map fun (name, text) => s!" {name}={text}"
    IO.println s!"WARN {warning.message}{String.join details}"

/-- Lets the present moment of a run pass. -/
def Watch.pass (watch : Watch) (run : Run KnownRegistry) : IO (Run KnownRegistry) := do
  let files ← readFiles watch.settings.registry.files
  let surroundings := { watch.surroundings with files }
  let within (known : Answers) : Run KnownRegistry :=
    run.amid surroundings watch.settings.registry known
  let known ← learn fun known => (within known).inquiries
  let after := (within known).instant
  tell (Run.warnings (after.eventsSince run))
  return { after with log := [] }

/-- Keeps a run up to date until the service is interrupted. While a tick is under way its calls
have been answered, so that its moments are gone through one after the other. -/
partial def Watch.keep (watch : Watch) (run : Run KnownRegistry) : IO Unit := do
  watch.state.set run
  let present ← watch.clock
  match run.nextTime? with
  | none => return
  | some time =>
    if ← watch.wait (time - present) then return
    let now ← if run.ticks.isEmpty then max time <$> watch.clock else pure time
    watch.keep (← watch.pass { run with now })

/-- Serves until the program is interrupted. -/
def serve (surroundings : Surroundings) (settings : Settings) (run : Run KnownRegistry)
    (server : Std.Async.TCP.Socket.Server) : IO Unit := do
  let interrupt ← Std.Async.Signal.Waiter.mk .sigint true
  let began ← IO.monoMsNow
  let epoch := (← Std.Time.Timestamp.now).toMillisecondsSinceUnixEpoch.toInt.toNat
  let run := { run with epoch }
  let state ← IO.mkRef run
  let answer (request : Http.Request) : IO Http.Response := do
    let run ← state.get
    return Server.handle run.published run.config.effectiveMaxWindow request
  let _ ← ( Std.Async.Async.toIO (Connection.serve server answer))
  let clock : IO Nat := return (← IO.monoMsNow) - began
  let wait (millis : Nat) : IO Bool := Std.Async.Async.block do
    let enough ← Std.Async.Selector.sleep (.ofNat millis)
    Std.Async.Selectable.one
      #[.case interrupt.selector fun _ => return true, .case enough fun _ => return false]
  Watch.keep { surroundings, settings, clock, wait, state } run

/-! ## The whole program -/

/-- Ends the program as its course says. -/
def finish (course : Course) : IO UInt32 := do
  match course with
  | .usage .help => Command.usage.forM IO.println
  | .usage fault => ("error: " ++ fault.message) :: "" :: Command.usage |>.forM IO.eprintln
  | course =>
    IO.print course.output
    course.complaint.forM IO.eprintln
  return UInt32.ofNat course.exit

/-- Runs the program with a command line. -/
def run (words : List String) : IO UInt32 := do
  let surroundings ← meet words
  match Course.ofArguments surroundings words with
  | .serving settings run =>
    match ← (Connection.listen settings.listen).toBaseIO with
    | .ok server =>
      serve surroundings settings run server
      return 0
    | .error error =>
      let refusal (_ : SocketAddress) : Option String := some (reason error)
      finish (.ofArguments { surroundings with refusal } words)
  | course => finish course

end Vitals.Program

/-- The program. -/
def main (words : List String) : IO UInt32 := Vitals.Program.run words
