import Vitals.Cbor.Skip

/-!
# Values with a binary form

A `Form α` writes the values of a type as bytes and reads them back from the front of a list
of bytes. A record is the list of its fields; items beyond its fields are passed over.
-/

namespace Vitals.Cbor

/-- The binary form of a type. -/
structure Form (α : Type) where
  encode : α → List UInt8
  decode : List UInt8 → Read α

namespace Form

/-- Counters. -/
def uint64 : Form UInt64 where
  encode n := head 0 n.toNat
  decode
    | [] => .error .endOfInput
    | b :: s =>
      if kindOf b = 0 then
        (readNumber (infoOf b) s).map fun (n, s) => (UInt64.ofNat n, s)
      else .error (mismatch b s)

/-- Signed numbers; `-1 - n` is written as `n` under a kind of its own. -/
def int64 : Form Int64 where
  encode n :=
    if n < 0 then head 1 (-1 - n.toInt).toNat else head 0 n.toInt.toNat
  decode
    | [] => .error .endOfInput
    | b :: s =>
      if kindOf b ≤ 1 then
        match readNumber (infoOf b) s with
        | .error fault => .error fault
        | .ok (n, s) =>
          if n < 9223372036854775808 then
            .ok (Int64.ofInt (if kindOf b = 0 then (n : Int) else -1 - (n : Int)), s)
          else .error .overflow
      else .error (mismatch b s)

/-- Truth values. -/
def bool : Form Bool where
  encode b := [if b then 0xf5 else 0xf4]
  decode
    | [] => .error .endOfInput
    | b :: s =>
      if b = 0xf4 then .ok (false, s)
      else if b = 0xf5 then .ok (true, s)
      else .error (mismatch b s)

/-- Texts. -/
def string : Form String where
  encode s :=
    let bytes := Utf8.encode s
    head 3 bytes.length ++ bytes
  decode
    | [] => .error .endOfInput
    | b :: s =>
      if kindOf b = 3 then
        match readNumber (infoOf b) s with
        | .error fault => .error fault
        | .ok (length, s) =>
          match takeBytes length s with
          | .error fault => .error fault
          | .ok (bytes, s) =>
            match Utf8.decode? bytes with
            | some text => .ok (text, s)
            | none => .error .utf8
      else .error (mismatch b s)

/-- Values that may be lacking. -/
def option {α : Type} (form : Form α) : Form (Option α) where
  encode
    | none => [0xf6]
    | some x => form.encode x
  decode
    | [] => .error .endOfInput
    | b :: s =>
      if b = 0xf6 then .ok (none, s) else (form.decode (b :: s)).map fun (x, s) => (some x, s)

/-- Reads the head of a list: how many items it has. -/
def readListHead : List UInt8 → Read Remaining
  | [] => .error .endOfInput
  | b :: s =>
    if kindOf b = 4 then
      if infoOf b = 31 then .ok (none, s)
      else (readNumber (infoOf b) s).map fun (n, s) => (some n, s)
    else .error (mismatch b s)

/-- Whether a list ends here; if so, what follows it. -/
def listEnd? : Remaining → List UInt8 → Except Fault (Option (List UInt8))
  | some 0, s => .ok (some s)
  | some (_ + 1), _ => .ok none
  | none, [] => .error .endOfInput
  | none, b :: s => .ok (if b = stop then some s else none)

/-- Reads the rest of the items of a list. -/
def decodeItems {α : Type} (form : Form α) : Nat → Remaining → List UInt8 → Read (List α)
  | fuel, remaining, s =>
    match listEnd? remaining s with
    | .error fault => .error fault
    | .ok (some s) => .ok ([], s)
    | .ok none =>
      match fuel, form.decode s with
      | _, .error fault => .error fault
      | 0, .ok _ => .error .endOfInput
      | fuel + 1, .ok (x, s) =>
        (form.decodeItems fuel (remaining.map (· - 1)) s).map fun (xs, s) => (x :: xs, s)

/-- Lists. -/
def list {α : Type} (form : Form α) : Form (List α) where
  encode xs := head 4 xs.length ++ xs.flatMap form.encode
  decode s :=
    match readListHead s with
    | .error fault => .error fault
    | .ok (remaining, s) => form.decodeItems s.length remaining s

end Form

/-- The fields of a record, whose values together form a `τ`. -/
inductive Fields : Type → Type 1 where
  | nil : Fields Unit
  /-- A field with the value that it has where the list is too short, if there is one. -/
  | cons {α τ : Type} (form : Form α) (absent : Option α) (others : Fields τ) : Fields (α × τ)

namespace Fields

/-- A field that has to be there, before others. -/
def and {α τ : Type} (form : Form α) (others : Fields τ) : Fields (α × τ) :=
  cons form none others

/-- The number of fields. -/
def count {τ : Type} : Fields τ → Nat
  | nil => 0
  | cons _ _ others => others.count + 1

/-- The fields one after another. -/
def encode {τ : Type} : Fields τ → τ → List UInt8
  | nil, () => []
  | cons form _ others, (x, values) => form.encode x ++ others.encode values

/-- The fields where the list has ended. -/
def absent {τ : Type} : Fields τ → Except Fault τ
  | nil => .ok ()
  | cons _ value others =>
    match value with
    | none => .error .missingValue
    | some x => others.absent.map (x, ·)

/-- Passes over the items beyond the fields. -/
def skipOthers : Nat → Remaining → List UInt8 → Except Fault (List UInt8)
  | fuel, remaining, s =>
    match Form.listEnd? remaining s with
    | .error fault => .error fault
    | .ok (some s) => .ok s
    | .ok none =>
      match fuel, skipItem s with
      | _, .error fault => .error fault
      | 0, .ok _ => .error .endOfInput
      | fuel + 1, .ok s => skipOthers fuel (remaining.map (· - 1)) s

/-- Reads the fields out of a list. -/
def decode {τ : Type} : Fields τ → Remaining → List UInt8 → Read τ
  | nil, remaining, s => (skipOthers s.length remaining s).map ((), ·)
  | cons form value others, remaining, s =>
    match Form.listEnd? remaining s with
    | .error fault => .error fault
    | .ok (some s) => ((cons form value others).absent).map (·, s)
    | .ok none =>
      match form.decode s with
      | .error fault => .error fault
      | .ok (x, s) =>
        (others.decode (remaining.map (· - 1)) s).map fun (values, s) => ((x, values), s)

end Fields

/-- Records with the fields. -/
def Form.record {α τ : Type} (fields : Fields τ) (ofFields : τ → α) (toFields : α → τ) :
    Form α where
  encode x := head 4 fields.count ++ fields.encode (toFields x)
  decode s :=
    match readListHead s with
    | .error fault => .error fault
    | .ok (remaining, s) => (fields.decode remaining s).map fun (values, s) => (ofFields values, s)

end Vitals.Cbor
