import Vitals.Collector.Run
import Vitals.Command.Basic
import Vitals.Http.Node
import Vitals.Query
import Vitals.Registry.File
import Vitals.Registry.Http

/-!
# The program

What the program does with a command line, as a function of the surroundings that it meets: the
files, the variables of its environment, the network, and the addresses that are taken. It ends
at once with an error or with the snapshots that were asked for, or it serves until it is
interrupted.
-/

namespace Vitals

/-! ## Surroundings -/

/-- What the program meets. -/
structure Surroundings where
  /-- What reading the file at a path gives. -/
  files : String → FileContent
  /-- The variables of the environment. -/
  environment : List (String × String)
  network : Http.Network
  /-- Why an address cannot be listened at, if it cannot. -/
  refusal : SocketAddress → Option String
deriving Inhabited

/-- The file of settings at a path. Its name may be written without the ending. -/
def Surroundings.settingsFile (surroundings : Surroundings) (path : String) : SettingsFile :=
  match surroundings.files path with
  | .ok content => some content
  | .error _ => (surroundings.files (path ++ ".toml")).toOption

/-- A registry that settings can name, in its present state. -/
inductive KnownRegistry where
  | file (content : FileContent)
  | http (registry : HttpRegistry)
deriving Inhabited

instance : Discovery KnownRegistry where
  view
    | .file content => Discovery.view content
    | .http registry => Discovery.view registry
  prompt := false

/-- The registry that settings name. -/
def Surroundings.registry (surroundings : Surroundings) : RegistrySource → KnownRegistry
  | .file path => .file (surroundings.files path)
  | .http url => .http (.ofPlace (some url) surroundings.network)

/-! ## What can go wrong -/

/-- Why the program fails. -/
inductive ProgramFault where
  | settings (fault : SettingsFault)
  | collector (fault : CollectorFault)
  /-- The address cannot be listened at. -/
  | bind (address : SocketAddress) (reason : String)
  | timeout (fault : TimeoutFault)
  | query (fault : QueryFault)
deriving Repr, DecidableEq, Inhabited

namespace ProgramFault

/-- The wording of the fault, the outermost cause first. The wording of a failed first scan
repeats that of its cause. -/
def causes : ProgramFault → List String
  | settings fault => fault.causes
  | collector fault =>
    ["failed to start collector", fault.message] ++ match fault with
      | .initialScan cause => [cause.message]
      | _ => []
  | bind address reason => [s!"failed to bind {address.text}", reason]
  | timeout fault => fault.causes
  | query fault => fault.causes

/-- The whole wording in one line. -/
def message (fault : ProgramFault) : String := String.intercalate ": " fault.causes

/-- The lines in which a user is told of the fault; the causes behind the outermost one follow
it, with numbers if there are several. -/
def report (fault : ProgramFault) : List String :=
  let causes := fault.causes
  let behind := match causes.drop 1 with
    | [] => []
    | [cause] => ["", "Caused by:", "    " ++ cause]
    | causes => ["", "Caused by:"] ++ causes.mapIdx fun i cause => s!"    {i}: {cause}"
  ("Error: " ++ causes.headD "") :: behind

end ProgramFault

/-! ## Serving -/

/-- The service of some settings when it is about to start, its first scrape being due. -/
def openService (surroundings : Surroundings) (settings : Settings) :
    Except ProgramFault (Run KnownRegistry) := do
  let fleet : Fleet :=
    { protocol := Http.protocol, respond := Http.nodeBehaviour surroundings.network }
  let registry := surroundings.registry settings.registry
  let (run, _) ← (Run.build settings.collector (some registry) (some fleet)).mapError .collector
  match surroundings.refusal settings.listen with
  | some reason => throw (.bind settings.listen reason)
  | none => return run.arm

/-- The settings that what is said on the command line gives. -/
def loadSettings (surroundings : Surroundings) (arguments : Command.ServeArguments) :
    Except ProgramFault Settings :=
  (Settings.load (arguments.config.map surroundings.settingsFile) surroundings.environment
    arguments.overrides).mapError .settings

/-- The settings that a command line gives, if it asks for a service and they can be loaded. -/
def Surroundings.settings? (surroundings : Surroundings) (words : List String) :
    Option Settings :=
  match Command.CommandLine.parse words with
  | .error _ => none
  | .ok line =>
    match line.task with
    | .serve arguments => (loadSettings surroundings arguments).toOption
    | .query _ => none

/-! ## Reading a server -/

/-- The snapshots that were asked for. -/
def runQuery (surroundings : Surroundings) (arguments : Command.QueryArguments) :
    Except ProgramFault ReadResponse := do
  let _ ← (requestTimeout arguments.timeout).mapError .timeout
  let request := ReadRequest.ofArguments arguments.service arguments.version arguments.past
  (query surroundings.network arguments.address request).mapError .query

/-! ## Command lines -/

/-- What becomes of the program. -/
inductive Course where
  /-- It is told something that it does not obey. -/
  | usage (fault : Command.UsageFault)
  | failed (fault : ProgramFault)
  /-- It prints snapshots and ends. -/
  | printed (response : ReadResponse)
  /-- It serves until it is interrupted, the first scrape being due. -/
  | serving (settings : Settings) (run : Run KnownRegistry)
deriving Inhabited

namespace Course

/-- The course of the program with a command line. -/
def ofArguments (surroundings : Surroundings) (words : List String) : Course :=
  match Command.CommandLine.parse words with
  | .error fault => usage fault
  | .ok line =>
    match line.task with
    | .query arguments =>
      match runQuery surroundings arguments with
      | .ok response => printed response
      | .error fault => failed fault
    | .serve arguments =>
      match loadSettings surroundings arguments with
      | .error fault => failed fault
      | .ok settings =>
        match openService surroundings settings with
        | .ok run => serving settings run
        | .error fault => failed fault

/-- The status with which the program ends, a service when it is interrupted. -/
def exit : Course → Nat
  | usage fault => fault.exit
  | failed _ => 1
  | printed _ | serving .. => 0

/-- What the program prints before it ends. -/
def output : Course → String
  | printed response => (ReadResponse.codec.toJson response).pretty ++ "\n"
  | _ => ""

/-- What the program says of a failure. -/
def complaint : Course → List String
  | failed fault => fault.report
  | _ => []

end Course

end Vitals
