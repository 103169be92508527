import Vitals.Command.Grammar
import Vitals.Settings.Basic

/-!
# The commands of the program

The program serves stats, which it also does without being told, or reads them from a running
server. The flags of serving may stand before the subcommand as well as after it; each place
has its own flags, and those after the subcommand are the ones that count where there is one.
-/

namespace Vitals.Command

/-! ## Arguments -/

/-- What is said to the service. -/
structure ServeArguments where
  /-- The path of a file of settings. -/
  config : Option String := none
  registryFile : Option String := none
  registryUrl : Option String := none
  listen : Option String := none
  scrapeInterval : Option String := none
  refreshInterval : Option String := none
  callTimeout : Option String := none
  window : Option UInt32 := none
deriving Repr, DecidableEq, Inhabited

/-- What is said to the reader of a server. -/
structure QueryArguments where
  address : String := defaultListen
  service : Option String := none
  version : Option String := none
  past : Bool := false
  timeout : String := "5s"
deriving Repr, DecidableEq, Inhabited

/-- A subcommand with its arguments. -/
inductive Subcommand where
  | serve (arguments : ServeArguments)
  | query (arguments : QueryArguments)
deriving Repr, DecidableEq, Inhabited

/-- A command line. -/
structure CommandLine where
  /-- What is said before the subcommand. -/
  top : ServeArguments := {}
  subcommand : Option Subcommand := none
deriving Repr, DecidableEq, Inhabited

/-! ## Flags -/

/-- The flags of serving. -/
def serveFlags : List Flag :=
  [⟨"config", some 'c', .value .path⟩,
   ⟨"registry-file", none, .value .path⟩,
   ⟨"registry-url", none, .value .text⟩,
   ⟨"listen", some 'l', .value .text⟩,
   ⟨"scrape-interval", none, .value .text⟩,
   ⟨"refresh-interval", none, .value .text⟩,
   ⟨"call-timeout", none, .value .text⟩,
   ⟨"window", none, .value .count⟩]

/-- The flags of reading. -/
def queryFlags : List Flag :=
  [⟨"addr", some 'a', .value .text⟩,
   ⟨"service", some 's', .value .text⟩,
   ⟨"version", some 'v', .value .text⟩,
   ⟨"past", some 'p', .switch⟩,
   ⟨"timeout", none, .value .text⟩]

/-- The grammar of serving. -/
def serveGrammar : Grammar where
  flags := serveFlags
  conflicts := [("registry-file", "registry-url")]

/-- The grammar of a whole command line. -/
def topGrammar : Grammar := { serveGrammar with subcommands := ["serve", "query"] }

/-- The grammar of reading. -/
def queryGrammar : Grammar where
  flags := queryFlags
  needs := [("version", "service")]

/-- The arguments of serving that have been read. -/
def ServeArguments.ofReading (reading : Reading) : ServeArguments where
  config := reading.value? "config"
  registryFile := reading.value? "registry-file"
  registryUrl := reading.value? "registry-url"
  listen := reading.value? "listen"
  scrapeInterval := reading.value? "scrape-interval"
  refreshInterval := reading.value? "refresh-interval"
  callTimeout := reading.value? "call-timeout"
  window := (reading.value? "window").bind countOf?

/-- The arguments of reading that have been read. -/
def QueryArguments.ofReading (reading : Reading) : QueryArguments :=
  let usual : QueryArguments := {}
  { address := (reading.value? "addr").getD usual.address
    service := reading.value? "service"
    version := reading.value? "version"
    past := reading.has "past"
    timeout := (reading.value? "timeout").getD usual.timeout }

/-! ## Reading a command line -/

/-- The flags of a subcommand, which has no subcommands of its own. -/
def readLevel (grammar : Grammar) (words : List String) : Except UsageFault Reading := do
  let (reading, _) ← grammar.readWords false {} words
  grammar.finish reading

/-- The subcommand of a name. -/
def readSubcommand (name : String) (words : List String) : Except UsageFault Subcommand := do
  if name = "serve" then return .serve (.ofReading (← readLevel serveGrammar words))
  else return .query (.ofReading (← readLevel queryGrammar words))

/-- The command line that words write. What is wrong with a subcommand is told before what is
found to be wrong at the end of what stands before it. -/
def CommandLine.parse (words : List String) : Except UsageFault CommandLine := do
  let (reading, next) ← topGrammar.readWords false {} words
  let subcommand ← match next with
    | none => pure none
    | some (name, rest) => (readSubcommand name rest).map some
  return { top := .ofReading (← topGrammar.finish reading), subcommand }

/-- How a command line is written. -/
def usage : List String :=
  ["Usage: [flags] [serve [flags]]"] ++ serveGrammar.usage
    ++ ["Usage: query [flags]"] ++ queryGrammar.usage

/-! ## What is to be done -/

/-- What is said on the command line about the settings. -/
def ServeArguments.overrides (arguments : ServeArguments) : Overrides where
  scrapeInterval := arguments.scrapeInterval
  refreshInterval := arguments.refreshInterval
  callTimeout := arguments.callTimeout
  window := arguments.window
  listen := arguments.listen
  registryFile := arguments.registryFile
  registryUrl := arguments.registryUrl

/-- What a command line asks to be done. -/
def CommandLine.task (line : CommandLine) : Subcommand := line.subcommand.getD (.serve line.top)

end Vitals.Command
