import Vitals.Json.Printer
import Vitals.Json.Reader
import Vitals.Json.Skip

/-!
# Values with a JSON form

A `Codec α` reads values of a type from a text, takes them from a document that was read
before, and gives the document that is written for them. Reading from a text places every
fault; the reader of a value leaves the text at the first byte after it.
-/

namespace Vitals.Json

/-- The JSON form of a type. -/
structure Codec (α : Type) where
  /-- Reads a value from a text. -/
  read : List UInt8 → Read α
  /-- The value that a document is. -/
  ofJson : Json → Except ShapeFault α
  /-- The document of a value. -/
  toJson : α → Json

/-- The fault of `found` in the place of something else. -/
def unexpected {α : Type} (document : Json) (expected : String) : Except ShapeFault α :=
  .error (.wrongType (found document) expected)

/-- The fault of a value that begins with `b` in the place of something else: a scalar is read
before it is refused, a list or an object is refused at its bracket. -/
def unexpectedAt (expected : String) (b : UInt8) (rest : List UInt8) : Fault :=
  if b = byte '[' then .here (.shape (.wrongType .list expected)) (b :: rest)
  else if b = byte '{' then .here (.shape (.wrongType .object expected)) (b :: rest)
  else
    match readScalar b rest with
    | .error fault => fault
    | .ok (document, rest) => .here (.shape (.wrongType (found document) expected)) rest

namespace Codec

/-- The value in a whole text. -/
def parse {α : Type} (codec : Codec α) (s : List UInt8) : Except Fault α :=
  readWhole codec.read s

/-- The text of a value without blanks. -/
def text {α : Type} (codec : Codec α) (x : α) : String := (codec.toJson x).compact

/-- A type whose values are scalars. -/
def scalar {α : Type} (expected : String) (ofScalar : Json → Except ShapeFault α)
    (toJson : α → Json) : Codec α where
  read s :=
    match skipBlanks s with
    | [] => .error (.next (.ended .value) [])
    | b :: rest =>
      if b = byte '[' ∨ b = byte '{' then .error (unexpectedAt expected b rest)
      else
        match readScalar b rest with
        | .error fault => .error fault
        | .ok (document, rest) =>
          match ofScalar document with
          | .ok x => .ok (x, rest)
          | .error fault => .error (.here (.shape fault) rest)
  ofJson := ofScalar
  toJson := toJson

/-- Texts. -/
def string : Codec String :=
  scalar "a string"
    (fun
      | .text s => .ok s
      | document => unexpected document "a string")
    .text

/-- Truth values. -/
def bool : Codec Bool :=
  scalar "a boolean"
    (fun
      | .flag b => .ok b
      | document => unexpected document "a boolean")
    .flag

/-- Counters, from `0` to `2 ^ 64 - 1`. -/
def uint64 : Codec UInt64 :=
  scalar "u64"
    (fun
      | .integer n =>
        if h : 0 ≤ n ∧ n.toNat < UInt64.size then .ok (UInt64.ofNatLT n.toNat h.2)
        else .error (.wrongValue (.integer n) "u64")
      | document => unexpected document "u64")
    fun n => .integer n.toNat

/-- Points in time, from `-2 ^ 63` to `2 ^ 63 - 1`. -/
def int64 : Codec Int64 :=
  scalar "i64"
    (fun
      | .integer n =>
        if -9223372036854775808 ≤ n ∧ n < 9223372036854775808 then .ok (Int64.ofInt n)
        else .error (.wrongValue (.integer n) "i64")
      | document => unexpected document "i64")
    fun n => .integer n.toInt

/-- Values that may be lacking, written as `null`. -/
def option {α : Type} (codec : Codec α) : Codec (Option α) where
  read s :=
    match skipBlanks s with
    | [] => .error (.next (.ended .value) [])
    | b :: rest =>
      if b = byte 'n' then (readWord ['u', 'l', 'l'] rest).map (none, ·)
      else (codec.read (b :: rest)).map fun (x, rest) => (some x, rest)
  ofJson
    | .null => .ok none
    | document => (codec.ofJson document).map some
  toJson
    | none => .null
    | some x => codec.toJson x

/-- Reads the rest of the items of a list. -/
def readItems {α : Type} (codec : Codec α) : Nat → Bool → List UInt8 → Read (List α)
  | 0, _, s => .error (.next (.ended .list) s)
  | fuel + 1, first, s =>
    match nextItem first s with
    | .error fault => .error fault
    | .ok (none, rest) => .ok ([], rest)
    | .ok (some (), rest) =>
      match codec.read rest with
      | .error fault => .error fault
      | .ok (x, rest) => (codec.readItems fuel false rest).map fun (xs, rest) => (x :: xs, rest)

/-- Lists. -/
def list {α : Type} (codec : Codec α) : Codec (List α) where
  read s :=
    match skipBlanks s with
    | [] => .error (.next (.ended .value) [])
    | b :: rest =>
      if b = byte '[' then codec.readItems (rest.length + 1) true rest
      else .error (unexpectedAt "a sequence" b rest)
  ofJson
    | .list items => items.mapM codec.ofJson
    | document => unexpected document "a sequence"
  toJson xs := .list (xs.map codec.toJson)

/-- Reads the rest of the members of a map, `before` being those read so far. -/
def readEntries {α : Type} (codec : Codec α) :
    Nat → Bool → OrderedMap String α → List UInt8 → Read (OrderedMap String α)
  | 0, _, _, s => .error (.next (.ended .object) s)
  | fuel + 1, first, before, s =>
    match nextMember first s with
    | .error fault => .error fault
    | .ok (none, rest) => .ok (before, rest)
    | .ok (some name, rest) =>
      match skipColon rest with
      | .error fault => .error fault
      | .ok rest =>
        match codec.read rest with
        | .error fault => .error fault
        | .ok (x, rest) => codec.readEntries fuel false (before.put name x) rest

/-- Maps from texts, written in the order of their keys. -/
def map {α : Type} (codec : Codec α) : Codec (OrderedMap String α) where
  read s :=
    match skipBlanks s with
    | [] => .error (.next (.ended .value) [])
    | b :: rest =>
      if b = byte '{' then codec.readEntries (rest.length + 1) true .empty rest
      else .error (unexpectedAt "a map" b rest)
  ofJson
    | .object members =>
      members.foldlM (fun before (name, document) =>
        (codec.ofJson document).map (before.put name ·))
        .empty
    | document => unexpected document "a map"
  toJson entries := .object (entries.entries.map fun (name, x) => (name, codec.toJson x))

end Codec

end Vitals.Json
