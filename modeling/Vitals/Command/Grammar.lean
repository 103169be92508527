import Vitals.Text.Digits

/-!
# Command lines

A command line is a sequence of words: flags, written by name after two dashes or by a letter
after one, their values, and at most one subcommand, to which all words after it belong. A
`Grammar` says which flags there are, and `Grammar.read` reads the words of one level. The
value of a flag is taken in when the next flag begins, or at the end of the level; so of two
faults the one that is met first is told.
-/

namespace Vitals.Command

/-- Why a command line is not obeyed. -/
inductive UsageFault where
  /-- Help is asked for. -/
  | help
  | unknownArgument
  | invalidSubcommand
  /-- A flag is repeated or excluded by another one. -/
  | conflict
  /-- A flag has no value. -/
  | invalidValue
  /-- The value of a flag is not of its form. -/
  | valueValidation
  /-- A flag that takes no value has one. -/
  | tooManyValues
  /-- Another flag is needed. -/
  | missingRequired
deriving Repr, DecidableEq, Inhabited

/-- The wording of the fault. -/
def UsageFault.message : UsageFault → String
  | help => "help is asked for"
  | unknownArgument => "an argument is not known"
  | invalidSubcommand => "a subcommand is not known"
  | conflict => "a flag is repeated or excluded by another one"
  | invalidValue => "a flag has no value"
  | valueValidation => "a value is not of its form"
  | tooManyValues => "a flag that takes no value has one"
  | missingRequired => "another flag is needed"

/-- The status with which the program ends. -/
def UsageFault.exit : UsageFault → Nat
  | help => 0
  | _ => 2

/-! ## Grammars -/

/-- The form of a value. -/
inductive Form where
  | text
  /-- A text that is not empty. -/
  | path
  /-- A number of 32 bits. -/
  | count
deriving Repr, DecidableEq

/-- The number of 32 bits that a text writes, with a sign or without one. -/
def countOf? (s : String) : Option UInt32 :=
  let (negative, digits) := match s.toList with
    | '-' :: digits => (true, digits)
    | '+' :: digits => (false, digits)
    | digits => (false, digits)
  (decimal? digits).bind fun number =>
    if (negative && number ≠ 0) || 4294967295 < number then none else some (UInt32.ofNat number)

/-- Whether a value is of the form, and else what is wrong. -/
def Form.check (form : Form) (value : String) : Except UsageFault Unit :=
  match form with
  | text => .ok ()
  | path => if value.isEmpty then .error .invalidValue else .ok ()
  | count => if (countOf? value).isSome then .ok () else .error .valueValidation

/-- What a flag does. -/
inductive Role where
  /-- It has a value. -/
  | value (form : Form)
  /-- It says something by being there. -/
  | switch
  /-- It asks for help. -/
  | help
deriving Repr, DecidableEq

/-- A flag. -/
structure Flag where
  name : String
  letter : Option Char := none
  role : Role
deriving Repr, DecidableEq

/-- The flag that asks for help. -/
def helpFlag : Flag := ⟨"help", some 'h', .help⟩

/-- The flags and subcommands of a level. -/
structure Grammar where
  flags : List Flag
  subcommands : List String := []
  /-- Flags that exclude each other. -/
  conflicts : List (String × String) := []
  /-- Flags of which the first one needs the second one. -/
  needs : List (String × String) := []

namespace Grammar

/-- The flag of a name. -/
def named? (grammar : Grammar) (name : String) : Option Flag :=
  (grammar.flags ++ [helpFlag]).find? (·.name == name)

/-- The flag of a letter. -/
def lettered? (grammar : Grammar) (letter : Char) : Option Flag :=
  (grammar.flags ++ [helpFlag]).find? (·.letter == some letter)

/-- How the flags are written, one in a line. -/
def usage (grammar : Grammar) : List String :=
  grammar.flags.map fun flag =>
    let letter := (flag.letter.map fun letter => s!"-{letter}, ").getD "    "
    let value := match flag.role with
      | .value .text => " <text>"
      | .value .path => " <path>"
      | .value .count => " <count>"
      | .switch | .help => ""
    "  " ++ letter ++ "--" ++ flag.name ++ value

/-- Whether a word is a subcommand; where there are any, one more asks for help. -/
def isSubcommand (grammar : Grammar) (word : String) : Bool :=
  grammar.subcommands.contains word || (!grammar.subcommands.isEmpty && word == "help")

end Grammar

/-! ## What has been read -/

/-- The flags that have been read. -/
structure Reading where
  /-- The flags with their values; switches have an empty one. -/
  given : List (String × String) := []
  /-- The flag whose value is still to be taken in, and the value if it has been met. -/
  pending : Option (Flag × Option String) := none

namespace Reading

/-- The value of a flag. -/
def value? (reading : Reading) (name : String) : Option String :=
  (reading.given.find? (·.1 == name)).map (·.2)

/-- Whether a flag is given. -/
def has (reading : Reading) (name : String) : Bool := (reading.value? name).isSome

/-- Takes in a flag with its value. -/
def accept (reading : Reading) (flag : Flag) (value : String) : Except UsageFault Reading :=
  if reading.has flag.name then .error .conflict
  else
    let next := { reading with given := reading.given ++ [(flag.name, value)] }
    match flag.role with
    | .value form => (form.check value).map fun _ => next
    | .switch => .ok next
    | .help => .error .help

/-- Takes in the value that is still to be taken in. -/
def resolve (reading : Reading) : Except UsageFault Reading :=
  match reading.pending with
  | none => .ok reading
  | some (_, none) => .error .invalidValue
  | some (flag, some value) => { reading with pending := none }.accept flag value

/-- Whether the next word that is no flag is the value of the last flag. -/
def awaits (reading : Reading) : Bool :=
  match reading.pending with
  | some (_, none) => true
  | _ => false

/-- Begins a flag, whose value may stand in the same word. -/
def begin (reading : Reading) (flag : Flag) (attached : Option String) :
    Except UsageFault Reading := do
  let reading ← reading.resolve
  match attached with
  | some value => reading.accept flag value
  | none => return { reading with pending := some (flag, none) }

end Reading

/-! ## Words -/

namespace Grammar

/-- Takes in a flag by name, `text` being what follows the two dashes. -/
def readNamed (grammar : Grammar) (reading : Reading) (text : List Char) :
    Except UsageFault Reading :=
  let name := String.ofList (text.takeWhile (· ≠ '='))
  let attached := match text.dropWhile (· ≠ '=') with
    | [] => none
    | _ :: value => some (String.ofList value)
  match grammar.named? name with
  | none => .error .unknownArgument
  | some flag =>
    match flag.role with
    | .value _ => reading.begin flag attached
    | _ =>
      if attached.isSome then .error .tooManyValues
      else do (← reading.resolve).accept flag ""

/-- Takes in flags by letter. What follows the letter of a flag with a value is the value, an
equals sign before it left out. -/
def readLettered (grammar : Grammar) (reading : Reading) : List Char → Except UsageFault Reading
  | [] => .ok reading
  | letter :: rest =>
    match grammar.lettered? letter with
    | none => .error .unknownArgument
    | some flag =>
      match flag.role with
      | .value _ =>
        reading.begin flag <| match rest with
          | [] => none
          | '=' :: value => some (String.ofList value)
          | value => some (String.ofList value)
      | _ =>
        match reading.resolve with
        | .error fault => .error fault
        | .ok reading =>
          match reading.accept flag "" with
          | .error fault => .error fault
          | .ok reading => grammar.readLettered reading rest

/-- What a word is. -/
inductive Word where
  | escape
  | named (text : List Char)
  | lettered (letters : List Char)
  | plain

/-- What a word is by its dashes. A dash alone is a plain word. -/
def classify (word : String) : Word :=
  match word.toList with
  | ['-', '-'] => .escape
  | '-' :: '-' :: text => .named text
  | '-' :: letter :: letters => .lettered (letter :: letters)
  | _ => .plain

/-- What is wrong with a plain word that is no value; `escaped` says that it stands after two
dashes alone. -/
def unexpected (grammar : Grammar) (escaped : Bool) (word : String) : UsageFault :=
  if grammar.subcommands.isEmpty || (escaped && grammar.isSubcommand word) then .unknownArgument
  else .invalidSubcommand

/-- The answer to a question for help with a subcommand. -/
def helpWith (grammar : Grammar) : List String → UsageFault
  | [] => .help
  | [word] => if grammar.isSubcommand word then .help else .invalidSubcommand
  | _ => .invalidSubcommand

/-- The flags of a level, and the subcommand with the words that belong to it. -/
def readWords (grammar : Grammar) (escaped : Bool) (reading : Reading) :
    List String → Except UsageFault (Reading × Option (String × List String))
  | [] => .ok (reading, none)
  | word :: rest =>
    if escaped then .error (grammar.unexpected true word)
    else if !reading.awaits && grammar.isSubcommand word then
      if word = "help" then .error (grammar.helpWith rest) else .ok (reading, some (word, rest))
    else
      match classify word with
      | .escape => grammar.readWords true reading rest
      | .named text =>
        match grammar.readNamed reading text with
        | .error fault => .error fault
        | .ok reading => grammar.readWords false reading rest
      | .lettered letters =>
        match grammar.readLettered reading letters with
        | .error fault => .error fault
        | .ok reading => grammar.readWords false reading rest
      | .plain =>
        match reading.pending with
        | some (flag, none) =>
          grammar.readWords false { reading with pending := some (flag, some word) } rest
        | _ => .error (grammar.unexpected false word)

/-- What has been read of a level, when all of it has been read. -/
def finish (grammar : Grammar) (reading : Reading) : Except UsageFault Reading := do
  let reading ← reading.resolve
  if grammar.conflicts.any fun (a, b) => reading.has a && reading.has b then throw .conflict
  if grammar.needs.any fun (a, b) => reading.has a && !reading.has b then throw .missingRequired
  return reading

end Grammar

end Vitals.Command
