/-!
# The heads of binary items

Every item begins with a byte that gives its kind in three bits and, in the other five, a
number or how many bytes of a number follow. `head` writes the shortest such head and
`readHead` reads any of them.
-/

namespace Vitals.Cbor

/-- Why bytes are not the value that is wanted. -/
inductive Fault where
  /-- The bytes end inside the value. -/
  | endOfInput
  /-- A record has too few items. -/
  | missingValue
  /-- An item of another kind stands there. -/
  | typeMismatch
  /-- A number is too large for its place. -/
  | overflow
  /-- The bytes of a text are not UTF-8. -/
  | utf8
deriving Repr, DecidableEq, Inhabited

/-- The result of reading from a list of bytes: a value and the bytes after it. -/
abbrev Read (α : Type) := Except Fault (α × List UInt8)

/-- The last `count` bytes of a number, the most significant first. -/
def bigEndian : Nat → Nat → List UInt8
  | 0, _ => []
  | count + 1, n => bigEndian count (n / 256) ++ [UInt8.ofNat (n % 256)]

/-- The number that bytes write, the most significant first. -/
def ofBigEndian (bytes : List UInt8) : Nat := bytes.foldl (fun n b => n * 256 + b.toNat) 0

/-- The shortest head of kind `kind` with the number `n`, which is below `2 ^ 64`. -/
def head (kind n : Nat) : List UInt8 :=
  let first (info : Nat) : UInt8 := UInt8.ofNat (kind * 32 + info)
  if n < 24 then [first n]
  else if n < 256 then first 24 :: bigEndian 1 n
  else if n < 65536 then first 25 :: bigEndian 2 n
  else if n < 4294967296 then first 26 :: bigEndian 4 n
  else first 27 :: bigEndian 8 n

/-- The kind of the item that begins with a byte. -/
def kindOf (b : UInt8) : Nat := b.toNat / 32

/-- The lower five bits of a first byte. -/
def infoOf (b : UInt8) : Nat := b.toNat % 32

/-- The first `count` bytes and those after them. -/
def takeBytes (count : Nat) (s : List UInt8) : Read (List UInt8) :=
  if s.length < count then .error .endOfInput else .ok (s.take count, s.drop count)

/-- The fault where the item that begins with `b` is of another kind than the one wanted. To
tell how wide a long negative number is takes two more bytes, and bytes that end before them end
inside the value. -/
def mismatch (b : UInt8) (s : List UInt8) : Fault :=
  if kindOf b = 1 ∧ 24 ≤ infoOf b ∧ infoOf b < 28 ∧ s.length < 2 then .endOfInput
  else .typeMismatch

/-- Reads the number that the lower five bits announce. -/
def readNumber (info : Nat) (s : List UInt8) : Read Nat :=
  if info < 24 then .ok (info, s)
  else if info < 28 then
    (takeBytes (Nat.pow 2 (info - 24)) s).map fun (bytes, s) => (ofBigEndian bytes, s)
  else .error .typeMismatch

/-- The byte that ends an item of open length. -/
def stop : UInt8 := 0xff

end Vitals.Cbor
