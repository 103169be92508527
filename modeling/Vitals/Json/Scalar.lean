import Vitals.Json.Fault
import Vitals.Text.Utf8

/-!
# The scalars of a JSON text

Readers for the parts of a JSON text that hold no other value: blanks, the three words,
numbers and texts. Each takes the bytes from where it starts and gives what it read with the
bytes after it.

A number without fraction and exponent is an integer as long as it lies between `-2 ^ 63`
and `2 ^ 64 - 1`. Any other is the binary64 product or quotient of its leading digits, as
many as stay below `2 ^ 64`, and a power of ten; both factors are rounded before.
-/

namespace Vitals.Json

/-- The result of reading from a list of bytes: a value and the bytes after it. -/
abbrev Read (α : Type) := Except Fault (α × List UInt8)

/-- The byte of an ASCII character. -/
def byte (c : Char) : UInt8 := c.toUInt8

/-- Whether a byte is one of the four blanks. -/
def isBlankByte (b : UInt8) : Bool :=
  b == byte ' ' || b == byte '\n' || b == byte '\t' || b == byte '\r'

/-- What follows the blanks. -/
def skipBlanks (s : List UInt8) : List UInt8 := s.dropWhile isBlankByte

/-- The text must go on with the rest of a word. -/
def readWord : List Char → List UInt8 → Except Fault (List UInt8)
  | [], s => .ok s
  | _ :: _, [] => .error (.here (.ended .value) [])
  | c :: word, b :: rest =>
    if b = byte c then readWord word rest else .error (.here (.malformed .word) rest)

/-! ## Numbers -/

/-- Whether a byte is a digit. -/
def isDigitByte (b : UInt8) : Bool := byte '0' ≤ b && b ≤ byte '9'

/-- The value of a digit. -/
def digitOf (b : UInt8) : Nat := b.toNat - 48

/-- The greatest integer that a number keeps exactly. -/
def maxCount : Nat := 18446744073709551615

/-- Appends digits to a number while it stays within `maxCount`; the digits from the first
one on that does not fit are left. -/
def absorb (n : Nat) : List UInt8 → Nat × List UInt8
  | [] => (n, [])
  | d :: digits =>
    if n * 10 + digitOf d ≤ maxCount then absorb (n * 10 + digitOf d) digits else (n, d :: digits)

/-- The binary64 power of ten. -/
def powerOfTen (k : Nat) : Magnitude := (Magnitude.ofNat (Nat.pow 10 k)).getD .zero

/-- The magnitude divided by `10 ^ k`, in steps of at most `10 ^ 308`. -/
def scaleDown (x : Magnitude) (k : Nat) : Magnitude :=
  if 308 < k ∧ !x.isZero then scaleDown ((x.div (powerOfTen 308)).getD .zero) (k - 308)
  else if 308 < k then x
  else (x.div (powerOfTen k)).getD .zero
termination_by k

/-- The number `± significand · 10 ^ exponent`; `none` when it is not finite. -/
def realOf (negative : Bool) (significand : Nat) (exponent : Int) : Option Binary64 :=
  let size := (Magnitude.ofNat significand).getD .zero
  let scaled :=
    if exponent < 0 then some (scaleDown size exponent.natAbs)
    else if exponent ≤ 308 then size.mul (powerOfTen exponent.natAbs)
    else if size.isZero then some size
    else none
  scaled.map (.finite negative)

/-- The number with its digits read, whose text ends where `rest` begins. -/
def finishReal (negative : Bool) (significand : Nat) (exponent : Int) (rest : List UInt8) :
    Read Json :=
  match realOf negative significand exponent with
  | some x => .ok (.real x, rest)
  | none => .error (.here (.malformed .tooLarge) rest)

/-- The greatest exponent that is read as a number. -/
def maxExponent : Nat := 2147483647

/-- What is left of the digits after the one that takes the number beyond `maxExponent`. -/
def exponentOverflow (n : Nat) : List UInt8 → Option (List UInt8)
  | [] => none
  | d :: digits =>
    if n * 10 + digitOf d ≤ maxExponent then exponentOverflow (n * 10 + digitOf d) digits
    else some digits

/-- An optional sign of an exponent, `true` for a minus, and what follows it. -/
def splitExponentSign : List UInt8 → Bool × List UInt8
  | [] => (false, [])
  | b :: rest =>
    if b = byte '-' then (true, rest)
    else if b = byte '+' then (false, rest)
    else (false, b :: rest)

/-- Reads the exponent after its mark. -/
def readExponentPart (negative : Bool) (significand : Nat) (exponent : Int) (s : List UInt8) :
    Read Json :=
  let (down, s) := splitExponentSign s
  let digits := s.takeWhile isDigitByte
  let rest := s.dropWhile isDigitByte
  if digits.isEmpty then
    match s with
    | [] => .error (.here (.ended .value) [])
    | _ :: rest => .error (.here (.malformed .number) rest)
  else
    match exponentOverflow 0 digits with
    | some left =>
      if significand ≠ 0 ∧ !down then .error (.here (.malformed .tooLarge) (left ++ rest))
      else .ok (.real (.finite negative .zero), rest)
    | none =>
      let size : Int := (absorb 0 digits).1
      finishReal negative significand (if down then exponent - size else exponent + size) rest

/-- Whether a byte marks an exponent. -/
def isExponentMark (b : UInt8) : Bool := b == byte 'e' || b == byte 'E'

/-- Reads what follows the fraction. -/
def readAfterFraction (negative : Bool) (significand : Nat) (exponent : Int) :
    List UInt8 → Read Json
  | [] => finishReal negative significand exponent []
  | b :: rest =>
    if isExponentMark b then readExponentPart negative significand exponent rest
    else finishReal negative significand exponent (b :: rest)

/-- Reads the fraction after its point. -/
def readFraction (negative : Bool) (significand : Nat) (exponent : Int) (s : List UInt8) :
    Read Json :=
  let digits := s.takeWhile isDigitByte
  let rest := s.dropWhile isDigitByte
  if digits.isEmpty then
    .error (.next (if rest.isEmpty then .ended .value else .malformed .number) rest)
  else
    let (significand, left) := absorb significand digits
    readAfterFraction negative significand (exponent - (digits.length - left.length : Nat)) rest

/-- The integer `± n` where it is one of the integers kept exactly, and otherwise the
nearest binary64 number; so is zero with a minus. -/
def integerOrReal (negative : Bool) (n : Nat) : Json :=
  if !negative then integer n
  else if n = 0 ∨ 9223372036854775808 < n then real (.ofSize true (Magnitude.ofNat n))
  else integer (-n)

/-- Reads a number after its sign. -/
def readNumber (negative : Bool) (s : List UInt8) : Read Json :=
  let digits := s.takeWhile isDigitByte
  let rest := s.dropWhile isDigitByte
  match digits with
  | [] =>
    match rest with
    | [] => .error (.here (.ended .value) [])
    | _ :: rest => .error (.here (.malformed .number) rest)
  | first :: others =>
    if first = byte '0' ∧ !others.isEmpty then
      .error (.next (.malformed .number) (others ++ rest))
    else
      let (significand, left) := absorb 0 digits
      match rest with
      | b :: rest' =>
        if b = byte '.' then readFraction negative significand left.length rest'
        else if isExponentMark b then
          readExponentPart negative significand left.length rest'
        else if left.isEmpty then .ok (integerOrReal negative significand, rest)
        else finishReal negative significand left.length rest
      | [] =>
        if left.isEmpty then .ok (integerOrReal negative significand, rest)
        else finishReal negative significand left.length rest

/-! ## Texts -/

/-- The byte that an escape of one letter stands for. -/
def escapedByte? (b : UInt8) : Option UInt8 :=
  if b = byte '"' ∨ b = byte '\\' ∨ b = byte '/' then some b
  else if b = byte 'b' then some 0x08
  else if b = byte 'f' then some 0x0c
  else if b = byte 'n' then some 0x0a
  else if b = byte 'r' then some 0x0d
  else if b = byte 't' then some 0x09
  else none

/-- The value of a hexadecimal digit. -/
def hexDigit? (b : UInt8) : Option Nat :=
  if isDigitByte b then some (b.toNat - 48)
  else if byte 'a' ≤ b ∧ b ≤ byte 'f' then some (b.toNat - 87)
  else if byte 'A' ≤ b ∧ b ≤ byte 'F' then some (b.toNat - 55)
  else none

/-- The sixteen bits that four hexadecimal digits write. -/
def hexUnit? (a b c d : UInt8) : Option Nat := do
  return (((← hexDigit? a) * 16 + (← hexDigit? b)) * 16 + (← hexDigit? c)) * 16 + (← hexDigit? d)

/-- Whether sixteen bits are the first half of a surrogate pair. -/
def isFirstHalf (unit : Nat) : Bool := 0xd800 ≤ unit && unit ≤ 0xdbff

/-- Whether sixteen bits are the second half of a surrogate pair. -/
def isSecondHalf (unit : Nat) : Bool := 0xdc00 ≤ unit && unit ≤ 0xdfff

/-- The code point of a surrogate pair. -/
def pairValue (first second : Nat) : Nat := (first - 0xd800) * 0x400 + (second - 0xdc00) + 0x10000

/-- The bytes of a code point before the bytes read so far, which are in reverse order. -/
def pushCodePoint (n : Nat) (before : List UInt8) : List UInt8 :=
  (String.utf8EncodeChar (Char.ofNat n)).reverse ++ before

/-- Reads the bytes of a text after its opening mark; `before` are those read so far, in
reverse order. -/
def readTextBytes (before : List UInt8) : List UInt8 → Read (List UInt8)
  | [] => .error (.here (.ended .text) [])
  | b :: rest =>
    if b = byte '"' then .ok (before.reverse, rest)
    else if b = byte '\\' then
      match rest with
      | [] => .error (.here (.ended .text) [])
      | e :: rest =>
        if e = byte 'u' then
          match rest with
          | h₁ :: h₂ :: h₃ :: h₄ :: rest =>
            match hexUnit? h₁ h₂ h₃ h₄ with
            | none => .error (.here (.malformed .escape) rest)
            | some unit =>
              if isSecondHalf unit then .error (.here (.malformed .loneSurrogate) rest)
              else if isFirstHalf unit then
                match rest with
                | [] => .error (.here (.ended .text) [])
                | b :: rest =>
                  if b ≠ byte '\\' then .error (.here (.malformed .halfPair) rest)
                  else
                    match rest with
                    | [] => .error (.here (.ended .text) [])
                    | e :: rest =>
                      if e ≠ byte 'u' then .error (.here (.malformed .halfPair) rest)
                      else
                        match rest with
                        | h₁ :: h₂ :: h₃ :: h₄ :: rest =>
                          match hexUnit? h₁ h₂ h₃ h₄ with
                          | none => .error (.here (.malformed .escape) rest)
                          | some second =>
                            if isSecondHalf second then
                              readTextBytes (pushCodePoint (pairValue unit second) before) rest
                            else .error (.here (.malformed .loneSurrogate) rest)
                        | _ => .error (.here (.ended .text) [])
              else readTextBytes (pushCodePoint unit before) rest
          | _ => .error (.here (.ended .text) [])
        else
          match escapedByte? e with
          | some b => readTextBytes (b :: before) rest
          | none => .error (.here (.malformed .escape) rest)
    else if b < 0x20 then .error (.here (.malformed .controlCharacter) rest)
    else readTextBytes (b :: before) rest

/-- Reads a text after its opening mark. Bytes that are not UTF-8 are told at the closing
mark. -/
def readTextBody (s : List UInt8) : Read String :=
  match readTextBytes [] s with
  | .error fault => .error fault
  | .ok (bytes, rest) =>
    match Utf8.decode? bytes with
    | some decoded => .ok (decoded, rest)
    | none => .error (.here (.malformed .codePoint) (byte '"' :: rest))

end Vitals.Json
