import Vitals.Json.Codec

/-!
# Records

A record is written as an object with a member for each field. It is read from such an
object, whose members come in any order and among others, or from the list of its fields in
order. `Fields τ δ` are the fields of a record whose values together form a `τ`; a `δ` is the
record while it is read, in which a field may be lacking yet.
-/

namespace Vitals.Json

/-- A field of a record. -/
structure Field (α : Type) where
  name : String
  codec : Codec α
  /-- The value of the field where the record says nothing about it; `none` for a field that
  has to be there. -/
  absent : Option α := none
  /-- The values that are left out when the record is written. -/
  hidden : α → Bool := fun _ => false

/-- The fields of a record, in the order in which they are written. -/
inductive Fields : Type → Type → Type 1 where
  | nil : Fields Unit Unit
  | cons {α τ δ : Type} (field : Field α) (others : Fields τ δ) : Fields (α × τ) (Option α × δ)

namespace Fields

/-- The number of fields. -/
def count {τ δ : Type} : Fields τ δ → Nat
  | nil => 0
  | cons _ others => others.count + 1

/-- The record of which nothing has been read. -/
def blank {τ δ : Type} : Fields τ δ → δ
  | nil => ()
  | cons _ others => (none, others.blank)

/-- The record once everything has been read. -/
def finish {τ δ : Type} : Fields τ δ → δ → Except ShapeFault τ
  | nil, () => .ok ()
  | cons field others, (slot, draft) =>
    match slot <|> field.absent with
    | none => .error (.missing field.name)
    | some x => (others.finish draft).map (x, ·)

/-- The fields from number `index` on where a list of them has ended. -/
def absentFrom {τ δ : Type} (expected : String) (index : Nat) :
    Fields τ δ → Except ShapeFault τ
  | nil => .ok ()
  | cons field others =>
    match field.absent with
    | none => .error (.wrongLength index expected)
    | some x => (others.absentFrom expected (index + 1)).map (x, ·)

/-- The members that are written. -/
def members {τ δ : Type} : Fields τ δ → τ → List (String × Json)
  | nil, () => []
  | cons field others, (x, values) =>
    if field.hidden x then others.members values
    else (field.name, field.codec.toJson x) :: others.members values

/-! ## From a text -/

/-- Where a repeated member is refused: past the end of the object if that is next, and else
at the next byte that is no blank. -/
def repeatedAt (name : String) (s : List UInt8) : Fault :=
  let rest := skipBlanks s
  let left := if rest.head? = some (byte '}') then rest.drop 1 else rest
  .here (.shape (.repeated name)) left

/-- Reads the colon and the value of the member `name`; a member that is no field is passed
over. -/
def readMember {τ δ : Type} (name : String) : Fields τ δ → δ → List UInt8 → Read δ
  | nil, (), s =>
    match skipColon s with
    | .error fault => .error fault
    | .ok rest => (skipValue rest).map ((), ·)
  | cons field others, (slot, draft), s =>
    if name = field.name then
      if slot.isSome then .error (repeatedAt name s)
      else
        match skipColon s with
        | .error fault => .error fault
        | .ok rest => (field.codec.read rest).map fun (x, rest) => ((some x, draft), rest)
    else (others.readMember name draft s).map fun (draft, rest) => ((slot, draft), rest)

/-- Reads the rest of the members. -/
def readMembers {τ δ : Type} (fields : Fields τ δ) : Nat → Bool → δ → List UInt8 → Read δ
  | 0, _, _, s => .error (.next (.ended .object) s)
  | fuel + 1, first, draft, s =>
    match nextMember first s with
    | .error fault => .error fault
    | .ok (none, rest) => .ok (draft, rest)
    | .ok (some name, rest) =>
      match fields.readMember name draft rest with
      | .error fault => .error fault
      | .ok (draft, rest) => fields.readMembers fuel false draft rest

/-- Reads the fields from number `index` on out of a list; the truth value says whether the
end of the list has been passed. -/
def readItems {τ δ : Type} (expected : String) :
    Fields τ δ → Nat → List UInt8 → Read (τ × Bool)
  | nil, _, s => .ok (((), false), s)
  | cons field others, index, s =>
    match nextItem (index == 0) s with
    | .error fault => .error fault
    | .ok (none, rest) =>
      match (cons field others).absentFrom expected index with
      | .error fault => .error (.here (.shape fault) rest)
      | .ok values => .ok ((values, true), rest)
    | .ok (some (), rest) =>
      match field.codec.read rest with
      | .error fault => .error fault
      | .ok (x, rest) =>
        (others.readItems expected (index + 1) rest).map fun ((values, ended), rest) =>
          (((x, values), ended), rest)

/-- Passes the end of a list of which all items have been read. -/
def endItems (s : List UInt8) : Except Fault (List UInt8) :=
  match skipBlanks s with
  | [] => .error (.next (.ended .list) [])
  | b :: rest =>
    if b = byte ']' then .ok rest
    else if b = byte ',' then
      let rest := skipBlanks rest
      if rest.head? = some (byte ']') then .error (.next (.malformed .trailingComma) rest)
      else .error (.next (.malformed .trailingCharacters) rest)
    else .error (.next (.malformed .trailingCharacters) (b :: rest))

/-! ## From a document -/

/-- Takes one member into account. -/
def ofMember {τ δ : Type} (name : String) (document : Json) :
    Fields τ δ → δ → Except ShapeFault δ
  | nil, () => .ok ()
  | cons field others, (slot, draft) =>
    if name = field.name then
      if slot.isSome then .error (.repeated name)
      else (field.codec.ofJson document).map fun x => (some x, draft)
    else (others.ofMember name document draft).map (slot, ·)

/-- The record with the members. -/
def ofMembers {τ δ : Type} (fields : Fields τ δ) (members : List (String × Json)) :
    Except ShapeFault τ := do
  let draft ← members.foldlM (fun draft (name, document) => fields.ofMember name document draft)
    fields.blank
  fields.finish draft

/-- The fields from number `index` on out of a list, with the items left over. -/
def ofItems {τ δ : Type} (expected : String) :
    Fields τ δ → Nat → List Json → Except ShapeFault (τ × List Json)
  | nil, _, items => .ok ((), items)
  | cons field others, index, [] =>
    ((cons field others).absentFrom expected index).map (·, [])
  | cons field others, index, item :: items =>
    match field.codec.ofJson item with
    | .error fault => .error fault
    | .ok x =>
      (others.ofItems expected (index + 1) items).map fun (values, items) => ((x, values), items)

end Fields

/-- How many fields a record has, for a message. -/
def describe (title : String) (count : Nat) : String :=
  let elements := if count = 1 then "element" else "elements"
  s!"{title} with {count} {elements}"

/-- Records with the fields, under a title for messages. -/
def Codec.record {α τ δ : Type} (title : String) (fields : Fields τ δ) (ofFields : τ → α)
    (toFields : α → τ) : Codec α where
  read s :=
    match skipBlanks s with
    | [] => .error (.next (.ended .value) [])
    | b :: rest =>
      if b = byte '[' then
        match fields.readItems (describe title fields.count) 0 rest with
        | .error fault => .error fault
        | .ok ((values, true), rest) => .ok (ofFields values, rest)
        | .ok ((values, false), rest) => (Fields.endItems rest).map (ofFields values, ·)
      else if b = byte '{' then
        match fields.readMembers (rest.length + 1) true fields.blank rest with
        | .error fault => .error fault
        | .ok (draft, rest) =>
          match fields.finish draft with
          | .ok values => .ok (ofFields values, rest)
          | .error fault => .error (.here (.shape fault) rest)
      else .error (unexpectedAt title b rest)
  ofJson
    | .list items =>
      match fields.ofItems (describe title fields.count) 0 items with
      | .error fault => .error fault
      | .ok (values, []) => .ok (ofFields values)
      | .ok (_, _ :: _) => .error (.wrongLength items.length "fewer elements in array")
    | .object members => (fields.ofMembers members).map ofFields
    | document => unexpected document title
  toJson x := .object (fields.members (toFields x))

end Vitals.Json
