import Vitals.Program

/-!
# What has to be asked

The program is a function of what becomes of its requests. Where a network is known only by
asking, the requests have to be told before they are sent: `Inquiry` holds questions that are
put at once, `Answers` what is known so far, and `Answers.next?` the requests that come next.
`Surroundings.inquiries` says what a command line has to be told before its course is known,
and `Run.inquiries` what a run has to be told before the present moment can pass.
-/

namespace Vitals

/-- Questions that are put at once. -/
structure Inquiry where
  questions : List Http.Question
  /-- How long an answer is waited for. -/
  patience : Duration
deriving Inhabited

/-- A request and the place that it goes to. -/
abbrev Errand := Url × Http.Request

/-- The errand that a question is, if it can be asked. -/
def Http.Question.errand? (question : Http.Question) : Option Errand :=
  (Http.askable question.url).toOption.map fun url => (url, question.request url)

/-! ## What is known -/

/-- What became of an errand. -/
structure Answer where
  errand : Errand
  outcome : Http.Outcome
  /-- After how many milliseconds. -/
  delay : Nat
deriving Inhabited

/-- What became of the errands so far. -/
abbrev Answers := List Answer

namespace Answers

/-- What became of an errand, if it is known. -/
def find? (known : Answers) (errand : Errand) : Option Answer :=
  List.find? (fun answer : Answer => answer.errand == errand) known

/-- The network on which no connection comes about but those that are known. -/
def network (known : Answers) : Http.Network := fun url request =>
  ((known.find? (url, request)).map (·.outcome)).getD .unreachable

/-- After how many milliseconds a question was answered. -/
def delay (known : Answers) (question : Http.Question) : Nat :=
  ((question.errand?.bind known.find?).map (·.delay)).getD 0

/-- The errands of the first inquiry that is not answered yet, each of them once, and how long
to wait for them. -/
def next? (known : Answers) (inquiries : List Inquiry) : Option (List Errand × Duration) :=
  inquiries.findSome? fun inquiry =>
    let errands := inquiry.questions.filterMap Http.Question.errand?
    match (errands.filter fun errand => (known.find? errand).isNone).eraseDups with
    | [] => none
    | missing => some (missing, inquiry.patience)

/-- The nodes as they are known, each answering after the time that it took. -/
def fleet (known : Answers) : Fleet where
  protocol := Http.protocol
  respond address call :=
    (Http.nodeBehaviour known.network address call).after
      (known.delay (Http.callQuestion address call))

end Answers

/-! ## What is asked -/

/-- How long a registry has to answer. -/
def HttpRegistry.patience : Duration := .ofSecs 10

/-- What a scan of the registry asks, as far as its network can tell. -/
def KnownRegistry.inquiries : KnownRegistry → List Inquiry
  | .file _ => []
  | .http registry =>
    let bare : List Service := match registry.listing with
      | .ok services => services.filter (·.nodes.isEmpty)
      | .error _ => []
    [⟨[registry.listingQuestion], HttpRegistry.patience⟩,
     ⟨bare.map fun service => registry.lookupQuestion service.name, HttpRegistry.patience⟩]

/-- The files that a command line names. -/
def namedFiles (words : List String) : List String :=
  match Command.CommandLine.parse words with
  | .error _ => []
  | .ok line =>
    match line.task with
    | .serve arguments => arguments.config.toList.flatMap fun path => [path, path ++ ".toml"]
    | .query _ => []

/-- The files that a registry is in. -/
def RegistrySource.files : RegistrySource → List String
  | .file path => [path]
  | .http _ => []

/-- What a command line has to be told before its course is known. -/
def Surroundings.inquiries (surroundings : Surroundings) (words : List String) : List Inquiry :=
  match Command.CommandLine.parse words with
  | .error _ => []
  | .ok line =>
    match line.task with
    | .query arguments =>
      match requestTimeout arguments.timeout with
      | .error _ => []
      | .ok patience =>
        let request := ReadRequest.ofArguments arguments.service arguments.version arguments.past
        [⟨[queryQuestion arguments.address request], patience⟩]
    | .serve _ =>
      match surroundings.settings? words with
      | none => []
      | some settings => (surroundings.registry settings.registry).inquiries

namespace Run

/-- What a tick over the directory asks. -/
def tickInquiry (run : Run KnownRegistry) : Inquiry where
  questions := (eligibleTargets run.fleet.protocol run.directory.services).map fun target =>
    Http.callQuestion target.node.address target.call
  patience := run.config.callTimeout

/-- What the loops that are due ask, in the order in which they begin. -/
def inquiries (run : Run KnownRegistry) : List Inquiry :=
  (run.loops.filter (·.isDue run.now)).flatMap fun loop =>
    match loop.task with
    | .scrape => [run.tickInquiry]
    | .refresh => run.registry.inquiries

/-- The run in surroundings of which no more is known than some answers. -/
def amid (run : Run KnownRegistry) (surroundings : Surroundings) (source : RegistrySource)
    (known : Answers) : Run KnownRegistry :=
  { run with
    registry := { surroundings with network := known.network }.registry source
    fleet := { known.fleet with calls := run.fleet.calls } }

end Run

end Vitals
