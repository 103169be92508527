import Vitals.Text.Digits
import Vitals.Text.Utf8

/-!
# Percent encoding

A byte that must not stand in a part of a URL is written as `%` and two hexadecimal digits.
`Percent.encode` keeps some characters and writes all others so, `Percent.decode` reads every
byte written so, and `Percent.escapeSegment` makes a text fit for one segment of a path.
-/

namespace Vitals.Percent

/-- A digit of base sixteen, in upper case. -/
def hexDigit (n : Nat) : Char := (Nat.digitChar n).toUpper

/-- A byte as `%` and two digits. -/
def encodeByte (b : UInt8) : List Char := ['%', hexDigit (b.toNat / 16), hexDigit (b.toNat % 16)]

/-- A character as the bytes that encode it, each as `%` and two digits. -/
def encodeChar (c : Char) : List Char := (String.utf8EncodeChar c).flatMap encodeByte

/-- Writes every character so that is not to be kept. -/
def encode (keeps : Char → Bool) (text : List Char) : List Char :=
  text.flatMap fun c => if keeps c then [c] else encodeChar c

/-- The bytes of a text in which `%` and two digits stand for a byte; a `%` without two digits
stands for itself. -/
def decode : List Char → List UInt8
  | [] => []
  | c :: rest =>
    match c, rest with
    | '%', a :: b :: more =>
      match digitIn? 16 a, digitIn? 16 b with
      | some high, some low => UInt8.ofNat (high * 16 + low) :: decode more
      | _, _ => String.utf8EncodeChar '%' ++ decode (a :: b :: more)
    | c, rest => String.utf8EncodeChar c ++ decode rest

/-- Puts a text in the place of a character wherever it stands. -/
def substitute (old : Char) (new : List Char) (text : List Char) : List Char :=
  text.flatMap fun c => if c = old then new else [c]

/-- A text as one segment of a path: the sign `%`, the slash and the space are written with
`%`, one after another, `%` being the first. -/
def escapeSegment (text : String) : String :=
  let percent := substitute '%' ['%', '2', '5'] text.toList
  let slash := substitute '/' ['%', '2', 'F'] percent
  String.ofList (substitute ' ' ['%', '2', '0'] slash)

/-- The text that a segment of a path stands for, if its bytes encode one. -/
def decodeSegment? (segment : String) : Option String := Utf8.decode? (decode segment.toList)

end Vitals.Percent
