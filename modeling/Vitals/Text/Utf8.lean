/-!
# UTF-8

A text as the bytes that encode it, and the text that bytes encode. `decode?_encode` says
that no text is lost on the way. `decodeLossy` reads any bytes, with a mark in the place of
those that encode nothing.
-/

namespace Vitals.Utf8

/-- The bytes of a text. -/
def encode (s : String) : List UInt8 := s.toList.flatMap String.utf8EncodeChar

/-- The text that the bytes encode, if they are well formed. -/
def decode? (bytes : List UInt8) : Option String := String.fromUTF8? bytes.toByteArray

theorem toByteArray_encode (s : String) : (encode s).toByteArray = s.toByteArray := by
  rw [encode, ← List.utf8Encode, ← String.toByteArray_ofList, String.ofList_toList]

theorem decode?_encode (s : String) : decode? (encode s) = some s := by
  simp only [decode?, toByteArray_encode, String.fromUTF8?]
  rw [dif_pos s.isValidUTF8]
  rfl

/-! ## Bytes that may encode nothing -/

/-- How many bytes follow a first byte, and between which two the first of them lies; `none`
for a byte that begins no character. -/
def following? (first : UInt8) : Option (Nat × UInt8 × UInt8) :=
  if first < 0x80 then some (0, 0x80, 0xbf)
  else if first < 0xc2 then none
  else if first < 0xe0 then some (1, 0x80, 0xbf)
  else if first < 0xf0 then
    some (2, if first = 0xe0 then 0xa0 else 0x80, if first = 0xed then 0x9f else 0xbf)
  else if first < 0xf5 then
    some (3, if first = 0xf0 then 0x90 else 0x80, if first = 0xf4 then 0x8f else 0xbf)
  else none

/-- How many of the bytes, at most `count`, continue a character; the first of them lies
between `low` and `high`. -/
def continued : Nat → UInt8 → UInt8 → List UInt8 → Nat
  | 0, _, _, _ | _, _, _, [] => 0
  | count + 1, low, high, b :: rest =>
    if low ≤ b ∧ b ≤ high then continued count 0x80 0xbf rest + 1 else 0

/-- The mark for bytes that encode nothing. -/
def replacement : Char := Char.ofNat 0xfffd

/-- The characters of any bytes. The bytes of a character that breaks off make one mark. -/
def charsLossy : Nat → List UInt8 → List Char
  | 0, _ | _, [] => []
  | limit + 1, first :: rest =>
    match following? first with
    | none => replacement :: charsLossy limit rest
    | some (count, low, high) =>
      let found := continued count low high rest
      let char :=
        if found = count then
          ((decode? (first :: rest.take count)).bind (·.toList.head?)).getD replacement
        else replacement
      char :: charsLossy limit (rest.drop found)

/-- The text of any bytes; a mark of the byte order at its beginning is left out. -/
def decodeLossy (bytes : List UInt8) : String :=
  match charsLossy bytes.length bytes with
  | c :: chars => String.ofList (if c.toNat = 0xfeff then chars else c :: chars)
  | [] => ""

end Vitals.Utf8
