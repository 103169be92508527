import Vitals.Json.Scalar

/-!
# Passing over a value

A value that nobody asked for is passed over: its brackets, separators and scalars have to be
in order, but its texts may hold any bytes and any escapes, its numbers may be of any size,
and its levels are not counted.
-/

namespace Vitals.Json

/-- Passes over a text after its opening mark. -/
def skipText : List UInt8 → Except Fault (List UInt8)
  | [] => .error (.here (.ended .text) [])
  | b :: rest =>
    if b = byte '"' then .ok rest
    else if b = byte '\\' then
      match rest with
      | [] => .error (.here (.ended .text) [])
      | e :: rest =>
        if e = byte 'u' then
          match rest with
          | h₁ :: h₂ :: h₃ :: h₄ :: rest =>
            if (hexUnit? h₁ h₂ h₃ h₄).isSome then skipText rest
            else .error (.here (.malformed .escape) rest)
          | _ => .error (.here (.ended .text) [])
        else if (escapedByte? e).isSome then skipText rest
        else .error (.here (.malformed .escape) rest)
    else if b < 0x20 then .error (.here (.malformed .controlCharacter) (b :: rest))
    else skipText rest

/-- Passes over an exponent after its mark. -/
def skipExponent (s : List UInt8) : Except Fault (List UInt8) :=
  match (splitExponentSign s).2 with
  | [] => .error (.here (.malformed .number) [])
  | d :: rest =>
    if isDigitByte d then .ok (rest.dropWhile isDigitByte)
    else .error (.here (.malformed .number) rest)

/-- Passes over what follows the digits before the point. -/
def skipAfterDigits : List UInt8 → Except Fault (List UInt8)
  | [] => .ok []
  | b :: rest =>
    if b = byte '.' then
      let rest' := rest.dropWhile isDigitByte
      if (rest.takeWhile isDigitByte).isEmpty then .error (.next (.malformed .number) rest')
      else
        match rest' with
        | [] => .ok []
        | mark :: tail => if isExponentMark mark then skipExponent tail else .ok rest'
    else if isExponentMark b then skipExponent rest
    else .ok (b :: rest)

/-- Passes over a number after its sign. -/
def skipNumber : List UInt8 → Except Fault (List UInt8)
  | [] => .error (.here (.malformed .number) [])
  | d :: rest =>
    if d = byte '0' then
      if (rest.takeWhile isDigitByte).isEmpty then skipAfterDigits rest
      else .error (.next (.malformed .number) rest)
    else if isDigitByte d then skipAfterDigits (rest.dropWhile isDigitByte)
    else .error (.here (.malformed .number) rest)

/-- A list or an object of which an item is being passed over. -/
inductive Frame where
  | list | object
deriving Repr, DecidableEq, Inhabited

namespace Frame

/-- The byte that ends it. -/
def close : Frame → UInt8
  | list => byte ']'
  | object => byte '}'

/-- What was being read when the text ends in it. -/
def ended : Frame → Ended
  | list => .list
  | object => .object

/-- What is missing when neither a comma nor its end follows an item. -/
def separator : Frame → Malformed
  | list => .listSeparator
  | object => .objectSeparator

/-- Passes over the name of a member and its colon; an item of a list has neither. -/
def skipName : Frame → List UInt8 → Except Fault (List UInt8)
  | list, s => .ok s
  | object, s =>
    match skipBlanks s with
    | [] => .error (.next (.ended .object) [])
    | b :: rest =>
      if b ≠ byte '"' then .error (.next (.malformed .key) (b :: rest))
      else
        match skipText rest with
        | .error fault => .error fault
        | .ok rest =>
          match skipBlanks rest with
          | [] => .error (.next (.ended .object) [])
          | b :: rest =>
            if b = byte ':' then .ok rest else .error (.next (.malformed .colon) (b :: rest))

end Frame

/-- Passes over a scalar that begins with `b`. -/
def skipScalar (b : UInt8) (rest : List UInt8) : Except Fault (List UInt8) :=
  if b = byte 'n' then readWord ['u', 'l', 'l'] rest
  else if b = byte 't' then readWord ['r', 'u', 'e'] rest
  else if b = byte 'f' then readWord ['a', 'l', 's', 'e'] rest
  else if b = byte '-' then skipNumber rest
  else if isDigitByte b then skipNumber (b :: rest)
  else if b = byte '"' then skipText rest
  else .error (.next (.malformed .value) (b :: rest))

mutual

/-- Passes over a value and then over the rest of the lists and objects around it, of which
the innermost comes first. -/
def skipValueIn : Nat → List Frame → List UInt8 → Except Fault (List UInt8)
  | 0, _, s => .error (.next (.ended .value) s)
  | fuel + 1, frames, s =>
    match skipBlanks s with
    | [] => .error (.next (.ended .value) [])
    | b :: rest =>
      if b = byte '[' then skipItemsIn fuel false (.list :: frames) rest
      else if b = byte '{' then skipItemsIn fuel false (.object :: frames) rest
      else
        match skipScalar b rest with
        | .error fault => .error fault
        | .ok rest => skipItemsIn fuel true frames rest

/-- Passes over the rest of the lists and objects `frames`; `started` says whether an item of
the innermost one has been passed over. -/
def skipItemsIn : Nat → Bool → List Frame → List UInt8 → Except Fault (List UInt8)
  | _, _, [], s => .ok s
  | 0, _, _ :: _, s => .error (.next (.ended .value) s)
  | fuel + 1, started, frame :: frames, s =>
    match skipBlanks s with
    | [] => .error (.next (.ended frame.ended) [])
    | b :: rest =>
      if b = frame.close then skipItemsIn fuel true frames rest
      else if started ∧ b ≠ byte ',' then .error (.next (.malformed frame.separator) (b :: rest))
      else
        match frame.skipName (if started then rest else b :: rest) with
        | .error fault => .error fault
        | .ok rest => skipValueIn fuel (frame :: frames) rest

end

/-- Passes over a value. Every byte takes at most two steps. -/
def skipValue (s : List UInt8) : Except Fault (List UInt8) :=
  skipValueIn (2 * s.length + 2) [] s

end Vitals.Json
