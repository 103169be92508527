import Vitals.Binary64.Shortest
import Vitals.Json.Basic

/-!
# Writing JSON documents

`Json.compact` writes a document without blanks, `Json.pretty` with one item or member a
line, each level two spaces further in. Members are written in the order in which they stand.
-/

namespace Vitals.Json

/-- A character inside a written text. -/
def escapeChar (c : Char) : List Char :=
  match c with
  | '"' => ['\\', '"']
  | '\\' => ['\\', '\\']
  | '\x08' => ['\\', 'b']
  | '\x0c' => ['\\', 'f']
  | '\n' => ['\\', 'n']
  | '\r' => ['\\', 'r']
  | '\t' => ['\\', 't']
  | c =>
    if c.toNat < 0x20 then
      ['\\', 'u', '0', '0', Nat.digitChar (c.toNat / 16), Nat.digitChar (c.toNat % 16)]
    else [c]

/-- A written text. -/
def writeText (s : String) : List Char := '"' :: s.toList.flatMap escapeChar ++ ['"']

/-- A written integer. -/
def writeInteger (n : Int) : List Char :=
  if n < 0 then '-' :: Nat.toDigits 10 n.natAbs else Nat.toDigits 10 n.natAbs

/-- A written number; one that is not finite has no form of its own. -/
def writeReal (x : Binary64) : List Char :=
  match x with
  | .finite .. => (x.render .data).toList
  | _ => ['n', 'u', 'l', 'l']

mutual

/-- A document without blanks. -/
def write : Json → List Char
  | null => ['n', 'u', 'l', 'l']
  | flag true => ['t', 'r', 'u', 'e']
  | flag false => ['f', 'a', 'l', 's', 'e']
  | integer n => writeInteger n
  | real x => writeReal x
  | text s => writeText s
  | list items => '[' :: writeItems items ++ [']']
  | object members => '{' :: writeMembers members ++ ['}']

/-- Items with commas between them. -/
def writeItems : List Json → List Char
  | [] => []
  | [item] => write item
  | item :: items => write item ++ ',' :: writeItems items

/-- Members with commas between them. -/
def writeMembers : List (String × Json) → List Char
  | [] => []
  | [(name, value)] => writeText name ++ ':' :: write value
  | (name, value) :: members => writeText name ++ ':' :: write value ++ ',' :: writeMembers members

end

/-- The text of a document without blanks. -/
def compact (document : Json) : String := String.ofList document.write

/-- A new line at a level. -/
def newLine (level : Nat) : List Char := '\n' :: List.replicate (2 * level) ' '

mutual

/-- A document whose inner lines are at `level` and deeper. -/
def writePretty (level : Nat) : Json → List Char
  | list (item :: items) =>
    '[' :: writePrettyItems level (item :: items) ++ newLine (level - 1) ++ [']']
  | object (member :: members) =>
    '{' :: writePrettyMembers level (member :: members) ++ newLine (level - 1) ++ ['}']
  | document => document.write

/-- Items a line each, with commas between them. -/
def writePrettyItems (level : Nat) : List Json → List Char
  | [] => []
  | [item] => newLine level ++ writePretty (level + 1) item
  | item :: items =>
    newLine level ++ writePretty (level + 1) item ++ ',' :: writePrettyItems level items

/-- Members a line each, with commas between them. -/
def writePrettyMembers (level : Nat) : List (String × Json) → List Char
  | [] => []
  | [(name, value)] =>
    newLine level ++ writeText name ++ ':' :: ' ' :: writePretty (level + 1) value
  | (name, value) :: members =>
    newLine level ++ writeText name ++ ':' :: ' ' :: writePretty (level + 1) value ++
      ',' :: writePrettyMembers level members

end

/-- The text of a document with a line for each item and member. -/
def pretty (document : Json) : String := String.ofList (document.writePretty 1)

end Vitals.Json
