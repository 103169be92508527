import Vitals.Binary64.Shortest
import Vitals.Json.Basic
import Vitals.Text.Quoted

/-!
# What can be wrong with a JSON text

A text may end too early (`Ended`), break the grammar (`Malformed`), or hold a document of
another shape than the one that is wanted (`ShapeFault`). A `Fault` is one of the three with
the place where it shows, as the number of bytes left there; `Fault.report` turns the place
into a line and a column.
-/

namespace Vitals.Json

/-- What was being read when the text ended. -/
inductive Ended where
  | list | object | text | value
deriving Repr, DecidableEq, Inhabited

/-- How a text breaks the grammar. -/
inductive Malformed where
  /-- No colon follows the name of a member. -/
  | colon
  /-- Neither a comma nor the end of the list follows an item. -/
  | listSeparator
  /-- Neither a comma nor the end of the object follows a member. -/
  | objectSeparator
  /-- A word other than the three of the grammar. -/
  | word
  /-- No value stands where one has to. -/
  | value
  /-- An unknown escape in a text. -/
  | escape
  | number
  /-- A number beyond the largest finite one. -/
  | tooLarge
  /-- The bytes of a text are not UTF-8. -/
  | codePoint
  | controlCharacter
  /-- A member begins with something other than a text. -/
  | key
  /-- One half of a surrogate pair alone. -/
  | loneSurrogate
  /-- The first half of a surrogate pair is followed by no escape. -/
  | halfPair
  | trailingComma
  | trailingCharacters
  /-- More levels of lists and objects than are allowed. -/
  | tooDeep
deriving Repr, DecidableEq, Inhabited

/-- What stands in the place of something else. -/
inductive Found where
  | null
  | flag (value : Bool)
  | integer (value : Int)
  | real (value : Binary64)
  | text (value : String)
  | list
  | object
deriving Repr, DecidableEq, Inhabited

/-- How a document differs from the shape that is wanted. -/
inductive ShapeFault where
  | wrongType (found : Found) (expected : String)
  | wrongValue (found : Found) (expected : String)
  | wrongLength (length : Nat) (expected : String)
  | missing (name : String)
  | repeated (name : String)
deriving Repr, DecidableEq, Inhabited

/-- What is wrong with a text. -/
inductive Cause where
  | ended (what : Ended)
  | malformed (how : Malformed)
  | shape (fault : ShapeFault)
deriving Repr, DecidableEq, Inhabited

/-- What is wrong with a text, and how many bytes are left where it shows. -/
structure Fault where
  cause : Cause
  left : Nat
deriving Repr, DecidableEq, Inhabited

def Ended.message : Ended → String
  | list => "EOF while parsing a list"
  | object => "EOF while parsing an object"
  | text => "EOF while parsing a string"
  | value => "EOF while parsing a value"

def Malformed.message : Malformed → String
  | colon => "expected `:`"
  | listSeparator => "expected `,` or `]`"
  | objectSeparator => "expected `,` or `\x7d`"
  | word => "expected ident"
  | value => "expected value"
  | escape => "invalid escape"
  | number => "invalid number"
  | tooLarge => "number out of range"
  | codePoint => "invalid unicode code point"
  | controlCharacter =>
    "control character (\\u0000-\\u001F) found while parsing a string"
  | key => "key must be a string"
  | loneSurrogate => "lone leading surrogate in hex escape"
  | halfPair => "unexpected end of hex escape"
  | trailingComma => "trailing comma"
  | trailingCharacters => "trailing characters"
  | tooDeep => "recursion limit exceeded"

def Found.message : Found → String
  | null => "null"
  | flag value => s!"boolean `{value}`"
  | integer value => s!"integer `{value}`"
  | real value => s!"floating point `{value.render .data}`"
  | text value => s!"string {quoted value}"
  | list => "sequence"
  | object => "map"

def ShapeFault.message : ShapeFault → String
  | wrongType found expected => s!"invalid type: {found.message}, expected {expected}"
  | wrongValue found expected => s!"invalid value: {found.message}, expected {expected}"
  | wrongLength length expected => s!"invalid length {length}, expected {expected}"
  | missing name => s!"missing field `{name}`"
  | repeated name => s!"duplicate field `{name}`"

def Cause.message : Cause → String
  | ended what => what.message
  | malformed how => how.message
  | shape fault => fault.message

/-- What a document is, for a message. -/
def found : Json → Found
  | null => .null
  | flag value => .flag value
  | integer value => .integer value
  | real value => .real value
  | text value => .text value
  | list _ => .list
  | object _ => .object

namespace Fault

/-- The fault shows where `rest` begins. -/
def here (cause : Cause) (rest : List UInt8) : Fault := ⟨cause, rest.length⟩

/-- The fault shows after the next byte of `rest`, or at its end. -/
def next (cause : Cause) (rest : List UInt8) : Fault := ⟨cause, rest.length - 1⟩

end Fault

/-- A place in a text: lines count from one, columns count the bytes before them in the
line. -/
structure Place where
  line : Nat
  column : Nat
deriving Repr, DecidableEq, Inhabited

/-- The place after all the bytes of `before`. -/
def Place.after (before : List UInt8) : Place :=
  ⟨1 + before.count 0x0a, (before.reverse.takeWhile (· != 0x0a)).length⟩

/-- The message of a fault in a text, with its place. -/
def Fault.report (text : List UInt8) (fault : Fault) : String :=
  let place := Place.after (text.take (text.length - fault.left))
  s!"{fault.cause.message} at line {place.line} column {place.column}"

end Vitals.Json
