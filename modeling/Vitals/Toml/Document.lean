import Vitals.Toml.Scalar

/-!
# TOML documents

A document is a sequence of entries, each with a key, and of headers that say to which table
the entries after them belong. A key may name a table in a table; a table has one header at
most, and no key has two values. `Toml.parse` gives the entries of the whole document.
-/

namespace Vitals.Toml

/-! ## Tables that are being written -/

/-- How a table came about. -/
inductive Origin where
  /-- It has a header. -/
  | header
  /-- The header of a table in it names it. -/
  | implied
  /-- The key of an entry in it names it. -/
  | key
deriving Repr, DecidableEq

/-- What a name stands for while the document is read. -/
inductive Entry where
  | value (value : Toml)
  | table (origin : Origin) (entries : List (String × Entry))
  /-- A list of tables, the last one first. -/
  | tables (elements : List (List (String × Entry)))
deriving Inhabited

/-- The entries of a table. -/
abbrev Entries := List (String × Entry)

namespace Entries

/-- What a name stands for. -/
def get? (entries : Entries) (name : String) : Option Entry :=
  (entries.find? (·.1 == name)).map (·.2)

/-- Makes a name stand for something else, or for something. -/
def put (entries : Entries) (name : String) (entry : Entry) : Entries :=
  if entries.any (·.1 == name) then
    entries.map fun (other, old) => if other = name then (other, entry) else (other, old)
  else entries ++ [(name, entry)]

/-- The entries of the table that a name of a header stands for, and what the name stands for
when they have changed. -/
def enter : Option Entry → Option (Entries × (Entries → Entry))
  | none => some ([], .table .implied)
  | some (.table origin entries) => some (entries, .table origin)
  | some (.tables (last :: others)) => some (last, fun entries => .tables (entries :: others))
  | some (.tables []) | some (.value _) => none

/-- Changes the table that the names of a header lead to. -/
def change (f : Entries → Option Entries) : List String → Entries → Option Entries
  | [], entries => f entries
  | name :: names, entries => do
    let (inner, close) ← enter (entries.get? name)
    return entries.put name (close (← change f names inner))

/-- Adds an entry under its key. A table that an entry is added to by a key has been named by
keys alone. -/
def add (value : Entry) : List String → Entries → Option Entries
  | [], _ => none
  | [name], entries =>
    if (entries.get? name).isSome then none else some (entries.put name value)
  | name :: names, entries =>
    match entries.get? name with
    | none => do return entries.put name (.table .key (← add value names []))
    | some (.table .key inner) => do return entries.put name (.table .key (← add value names inner))
    | some (.table .implied inner) =>
      if names.length = 1 then none
      else do return entries.put name (.table .implied (← add value names inner))
    | some _ => none

/-- Begins the table of a header. -/
def beginTable (name : String) (entries : Entries) : Option Entries :=
  match entries.get? name with
  | none => some (entries.put name (.table .header []))
  | some (.table .implied inner) => some (entries.put name (.table .header inner))
  | some _ => none

/-- Begins one more table of a list. -/
def beginElement (name : String) (entries : Entries) : Option Entries :=
  match entries.get? name with
  | none => some (entries.put name (.tables [[]]))
  | some (.tables elements) => some (entries.put name (.tables ([] :: elements)))
  | some _ => none

end Entries

mutual

/-- The value that a name stands for in the end. -/
def Entry.toToml : Entry → Toml
  | .value value => value
  | .table _ entries => .table (entriesToToml entries)
  | .tables elements => .list (elementsToToml elements).reverse

/-- The entries of a table in the end. -/
def entriesToToml : List (String × Entry) → List (String × Toml)
  | [] => []
  | (name, entry) :: entries => (name, entry.toToml) :: entriesToToml entries

/-- The tables of a list in the end. -/
def elementsToToml : List (List (String × Entry)) → List Toml
  | [] => []
  | entries :: others => .table (entriesToToml entries) :: elementsToToml others

end

/-! ## Values -/

/-- The number of levels of lists and tables that a value may have. -/
def maxLevels : Nat := 80

mutual

/-- A value. -/
def readValueIn : Nat → Nat → List Char → Option (Toml × List Char)
  | 0, _, _ => none
  | fuel + 1, levels, text =>
    match text with
    | '[' :: rest =>
      match levels with
      | 0 => none
      | levels + 1 => (readItemsIn fuel levels rest).map fun (items, rest) => (.list items, rest)
    | '\x7b' :: rest =>
      match levels with
      | 0 => none
      | levels + 1 =>
        (readEntriesIn fuel levels [] rest).map fun (entries, rest) =>
          (.table (entriesToToml entries), rest)
    | c :: rest =>
      if c = '"' ∨ c = '\'' then
        (readQuoted true (c :: rest)).map fun (s, rest) => (.string s, rest)
      else readWord (c :: rest)
    | [] => none

/-- The rest of a list. -/
def readItemsIn : Nat → Nat → List Char → Option (List Toml × List Char)
  | 0, _, _ => none
  | fuel + 1, levels, text =>
    match skipSpace text with
    | ']' :: rest => some ([], rest)
    | text =>
      match readValueIn fuel levels text with
      | none => none
      | some (item, rest) =>
        match skipSpace rest with
        | ',' :: rest =>
          (readItemsIn fuel levels rest).map fun (items, rest) => (item :: items, rest)
        | ']' :: rest => some ([item], rest)
        | _ => none

/-- The rest of a table in braces. -/
def readEntriesIn : Nat → Nat → Entries → List Char → Option (Entries × List Char)
  | 0, _, _, _ => none
  | fuel + 1, levels, before, text =>
    match skipSpace text with
    | '\x7d' :: rest => some (before, rest)
    | text =>
      match readKey text with
      | some (key, '=' :: rest) =>
        match readValueIn fuel levels (skipBlanks rest) with
        | none => none
        | some (value, rest) =>
          match Entries.add (.value value) key before, skipSpace rest with
          | some entries, ',' :: rest => readEntriesIn fuel levels entries rest
          | some entries, '\x7d' :: rest => some (entries, rest)
          | _, _ => none
      | _ => none

end

/-- A value. Every character takes at most two steps. -/
def readValue (text : List Char) : Option (Toml × List Char) :=
  readValueIn (2 * text.length + 2) maxLevels text

/-! ## Lines -/

/-- A document that has been read up to some line. -/
structure Progress where
  entries : Entries := []
  /-- The names of the header that the next entry is under. -/
  header : List String := []

/-- The names of a key but the last one, and the last one. -/
def splitLast : List String → Option (List String × String)
  | [] => none
  | name :: names => some ((name :: names).dropLast, (name :: names).getLast (by simp))

/-- Takes in a header, of a table or, with `element`, of one more table of a list. -/
def Progress.begin (progress : Progress) (element : Bool) (key : List String) :
    Option Progress := do
  let (path, name) ← splitLast key
  let start := if element then Entries.beginElement name else Entries.beginTable name
  return { entries := ← progress.entries.change start path, header := key }

/-- Takes in an entry. -/
def Progress.add (progress : Progress) (key : List String) (value : Toml) : Option Progress := do
  let entries ← progress.entries.change (Entries.add (.value value) key) progress.header
  return { progress with entries }

/-- Takes in the header or the entry at the beginning of a text. -/
def Progress.readStatement (progress : Progress) (text : List Char) :
    Option (Progress × List Char) :=
  match text with
  | '[' :: '[' :: rest =>
    match readKey rest with
    | some (key, ']' :: ']' :: rest) => (progress.begin true key).map (·, rest)
    | _ => none
  | '[' :: rest =>
    match readKey rest with
    | some (key, ']' :: rest) => (progress.begin false key).map (·, rest)
    | _ => none
  | text =>
    match readKey text with
    | some (key, '=' :: rest) => do
      let (value, rest) ← readValue (skipBlanks rest)
      return (← progress.add key value, rest)
    | _ => none

/-- Takes in so many lines at most. -/
def Progress.readLines (progress : Progress) : Nat → List Char → Option Progress
  | 0, _ => none
  | limit + 1, text =>
    match skipSpace text with
    | [] => some progress
    | text => do
      let (progress, rest) ← progress.readStatement text
      progress.readLines limit (← endLine rest)

/-- The entries of a document; a mark of the byte order may precede them. -/
def parse (text : String) : Option (List (String × Toml)) :=
  let chars := match text.toList with
    | c :: rest => if c.toNat = 0xfeff then rest else c :: rest
    | [] => []
  (Progress.readLines {} (chars.length + 1) chars).map fun progress =>
    entriesToToml progress.entries

end Vitals.Toml
