import Vitals.Json.Scalar
import Vitals.OrderedMap

/-!
# Reading JSON documents

`Json.parse` reads a whole text as a document. The members of an object come in the order of
their names, and of several members with one name the last stands. `nextItem` and
`nextMember` are the separators of lists and objects, for this reader and for those that know
what they read.
-/

namespace Vitals.Json

/-- Goes to the next item of a list: what follows is `none` at the end of the list, past its
bracket, and otherwise the text of the item. -/
def nextItem (first : Bool) (s : List UInt8) : Read (Option Unit) :=
  match skipBlanks s with
  | [] => .error (.next (.ended .list) [])
  | b :: rest =>
    if b = byte ']' then .ok (none, rest)
    else if first then .ok (some (), b :: rest)
    else if b ≠ byte ',' then .error (.next (.malformed .listSeparator) (b :: rest))
    else
      match skipBlanks rest with
      | [] => .error (.next (.ended .value) [])
      | b :: rest =>
        if b = byte ']' then .error (.next (.malformed .trailingComma) (b :: rest))
        else .ok (some (), b :: rest)

/-- Goes to the next member of an object: what follows is `none` at the end of the object,
past its brace, and otherwise the name of the member, with the text after it. -/
def nextMember (first : Bool) (s : List UInt8) : Read (Option String) :=
  match skipBlanks s with
  | [] => .error (.next (.ended .object) [])
  | b :: rest =>
    if b = byte '}' then .ok (none, rest)
    else if first then
      if b = byte '"' then (readTextBody rest).map fun (name, rest) => (some name, rest)
      else .error (.next (.malformed .key) (b :: rest))
    else if b ≠ byte ',' then .error (.next (.malformed .objectSeparator) (b :: rest))
    else
      match skipBlanks rest with
      | [] => .error (.next (.ended .value) [])
      | b :: rest =>
        if b = byte '"' then (readTextBody rest).map fun (name, rest) => (some name, rest)
        else if b = byte '}' then .error (.next (.malformed .trailingComma) (b :: rest))
        else .error (.next (.malformed .key) (b :: rest))

/-- Passes over the colon between the name of a member and its value. -/
def skipColon (s : List UInt8) : Except Fault (List UInt8) :=
  match skipBlanks s with
  | [] => .error (.next (.ended .object) [])
  | b :: rest =>
    if b = byte ':' then .ok rest else .error (.next (.malformed .colon) (b :: rest))

/-- Reads a scalar that begins with `b`. -/
def readScalar (b : UInt8) (rest : List UInt8) : Read Json :=
  if b = byte 'n' then (readWord ['u', 'l', 'l'] rest).map (null, ·)
  else if b = byte 't' then (readWord ['r', 'u', 'e'] rest).map (flag true, ·)
  else if b = byte 'f' then (readWord ['a', 'l', 's', 'e'] rest).map (flag false, ·)
  else if b = byte '-' then readNumber true rest
  else if isDigitByte b then readNumber false (b :: rest)
  else if b = byte '"' then (readTextBody rest).map fun (s, rest) => (text s, rest)
  else .error (.next (.malformed .value) (b :: rest))

mutual

/-- Reads a value that may hold `levels` levels of lists and objects. -/
def readValueIn : Nat → Nat → List UInt8 → Read Json
  | 0, _, s => .error (.next (.ended .value) s)
  | fuel + 1, levels, s =>
    match skipBlanks s with
    | [] => .error (.next (.ended .value) [])
    | b :: rest =>
      if b = byte '[' ∨ b = byte '{' then
        match levels with
        | 0 => .error (.next (.malformed .tooDeep) (b :: rest))
        | levels + 1 =>
          if b = byte '[' then
            (readItemsIn fuel levels true rest).map fun (items, rest) => (list items, rest)
          else
            (readMembersIn fuel levels true .empty rest).map fun (members, rest) =>
              (object members.entries, rest)
      else readScalar b rest

/-- Reads the rest of the items of a list. -/
def readItemsIn : Nat → Nat → Bool → List UInt8 → Read (List Json)
  | 0, _, _, s => .error (.next (.ended .list) s)
  | fuel + 1, levels, first, s =>
    match nextItem first s with
    | .error fault => .error fault
    | .ok (none, rest) => .ok ([], rest)
    | .ok (some (), rest) =>
      match readValueIn fuel levels rest with
      | .error fault => .error fault
      | .ok (item, rest) =>
        (readItemsIn fuel levels false rest).map fun (items, rest) => (item :: items, rest)

/-- Reads the rest of the members of an object, `before` being those read so far. -/
def readMembersIn : Nat → Nat → Bool → OrderedMap String Json → List UInt8 →
    Read (OrderedMap String Json)
  | 0, _, _, _, s => .error (.next (.ended .object) s)
  | fuel + 1, levels, first, before, s =>
    match nextMember first s with
    | .error fault => .error fault
    | .ok (none, rest) => .ok (before, rest)
    | .ok (some name, rest) =>
      match skipColon rest with
      | .error fault => .error fault
      | .ok rest =>
        match readValueIn fuel levels rest with
        | .error fault => .error fault
        | .ok (value, rest) => readMembersIn fuel levels false (before.put name value) rest

end

/-- Reads a value. Every byte takes at most two steps. -/
def readValue (levels : Nat) (s : List UInt8) : Read Json :=
  readValueIn (2 * s.length + 2) levels s

/-- The number of levels of lists and objects that a document may have. -/
def maxLevels : Nat := 127

/-- A whole text, read by `read`. -/
def readWhole {α : Type} (read : List UInt8 → Read α) (s : List UInt8) : Except Fault α :=
  match read s with
  | .error fault => .error fault
  | .ok (value, rest) =>
    match skipBlanks rest with
    | [] => .ok value
    | b :: rest => .error (.next (.malformed .trailingCharacters) (b :: rest))

/-- The document that a text writes. -/
def parse (s : List UInt8) : Except Fault Json := readWhole (readValue maxLevels) s

end Vitals.Json
