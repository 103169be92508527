import Vitals.Settings.Value

/-!
# Layers of settings

There are eight settings. Each source of settings is a layer that gives some of them, and
`Layer.upon` lays one upon another: each setting has the value that the highest layer gives it,
also where that value is no single one.
-/

namespace Vitals

/-- The settings. -/
inductive Key where
  | scrapeInterval | refreshInterval | callTimeout | window | maxWindow | listen
  | registryFile | registryUrl
deriving Repr, DecidableEq, Inhabited

namespace Key

/-- All settings. -/
def all : List Key :=
  [scrapeInterval, refreshInterval, callTimeout, window, maxWindow, listen, registryFile,
   registryUrl]

/-- The name of a setting. -/
def name : Key → String
  | scrapeInterval => "scrape_interval"
  | refreshInterval => "refresh_interval"
  | callTimeout => "call_timeout"
  | window => "window"
  | maxWindow => "max_window"
  | listen => "listen"
  | registryFile => "registry_file"
  | registryUrl => "registry_url"

/-- The setting of a name. -/
def ofName? (name : String) : Option Key := all.find? (·.name == name)

end Key

/-- What a source gives. -/
abbrev Layer := Key → Option Given

namespace Layer

/-- The layer that gives nothing. -/
def empty : Layer := fun _ => none

/-- One layer upon another. -/
def upon (upper lower : Layer) : Layer := fun key => (upper key).or (lower key)

/-- The layer that gives one value more. -/
def put (layer : Layer) (key : Key) (value : Given) : Layer :=
  fun other => if other = key then some value else layer other

/-! ## Names that lead into a setting -/

/-- Whether a character may stand in a name without more ado. -/
def isNameChar (c : Char) : Bool := c.isAlphanum || c == '_' || c == '-'

/-- Whether a text leads from a name into it: names after points and numbers in brackets, of
which there may be so many. -/
def isPath : Nat → List Char → Bool
  | _, [] => true
  | 0, _ => false
  | limit + 1, '.' :: rest =>
    !(rest.takeWhile isNameChar).isEmpty && isPath limit (rest.dropWhile isNameChar)
  | limit + 1, '[' :: rest =>
    let number := if rest.head? == some '-' then rest.drop 1 else rest
    !(number.takeWhile Char.isDigit).isEmpty
      && match number.dropWhile Char.isDigit with
        | ']' :: rest => isPath limit rest
        | _ => false
  | _, _ => false

/-- What an entry sets: the setting of its name, or the one that its name leads into, which is
then no longer a single value. -/
def target (name : String) (value : Given) : Option (Key × Given) :=
  let root := name.toList.takeWhile isNameChar
  let path := name.toList.dropWhile isNameChar
  if !root.isEmpty && !path.isEmpty && isPath path.length path then
    (Key.ofName? (String.ofList root)).map (·, .composite)
  else (Key.ofName? name).map (·, value)

/-- The layer of some entries, of which the later ones stand. -/
def ofEntries (entries : List (String × Given)) : Layer :=
  entries.foldl (fun layer (name, value) =>
    match target name value with
    | some (key, value) => layer.put key value
    | none => layer) empty

/-- The layer of a TOML document. -/
def ofToml (entries : List (String × Toml)) : Layer :=
  ofEntries (entries.map fun (name, value) => (name, .ofToml value))

/-! ## Variables -/

/-- What the names of variables that are settings begin with. -/
def variableStart : String := "STATSWATCH"

/-- The name of the entry that a variable is, if it is one. Case does not matter. -/
def entryName? (name : String) : Option String :=
  let beginning := (variableStart ++ "_").toLower.toList
  let rest := name.toLower.toList
  if beginning.isPrefixOf rest then some (String.ofList (rest.drop beginning.length)) else none

/-- The layer of the variables of an environment. -/
def ofVariables (environment : List (String × String)) : Layer :=
  ofEntries (environment.filterMap fun (name, value) =>
    (entryName? name).map (·, .text value))

end Layer

end Vitals
