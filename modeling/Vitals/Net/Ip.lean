import Vitals.Text.Digits

/-!
# Addresses of the internet

Addresses of the two versions of the internet protocol, how they are written and how they are
read. `Ipv6.read` takes the address at the beginning of a text, with one run of zeros left out
or its last two groups written as an address of the older version.
-/

namespace Vitals

/-- An address of four octets. -/
structure Ipv4 where
  a : UInt8
  b : UInt8
  c : UInt8
  d : UInt8
deriving Repr, DecidableEq, Inhabited

/-- An address of eight groups. -/
structure Ipv6 where
  groups : Vector UInt16 8
deriving Repr, DecidableEq, Inhabited

/-! ## Numbers in addresses -/

/-- The rules for a number in an address. -/
structure NumberForm where
  base : Nat := 10
  /-- The greatest number. -/
  most : Nat
  /-- The greatest number of digits, if it is limited. -/
  places : Option Nat := none
  /-- Whether zeros may precede the number. -/
  leadingZeros : Bool := true

/-- The number at the beginning of a text, which all the digits there belong to. -/
def NumberForm.read (form : NumberForm) (text : List Char) : Option (Nat × List Char) :=
  let digits := text.takeWhile (isDigitIn form.base)
  let number := numberIn form.base digits
  if digits.isEmpty || form.most < number || form.places.any (· < digits.length)
      || (!form.leadingZeros && digits.head? == some '0' && 1 < digits.length) then none
  else some (number, text.dropWhile (isDigitIn form.base))

/-- What follows a character at the beginning of a text. -/
def afterChar (c : Char) : List Char → Option (List Char)
  | [] => none
  | d :: rest => if d = c then some rest else none

/-! ## The older version -/

namespace Ipv4

/-- How an octet is written. -/
def octet : NumberForm := { most := 255, places := some 3, leadingZeros := false }

/-- The address at the beginning of a text. -/
def read (text : List Char) : Option (Ipv4 × List Char) := do
  let (a, rest) ← octet.read text
  let (b, rest) ← octet.read (← afterChar '.' rest)
  let (c, rest) ← octet.read (← afterChar '.' rest)
  let (d, rest) ← octet.read (← afterChar '.' rest)
  return (⟨UInt8.ofNat a, UInt8.ofNat b, UInt8.ofNat c, UInt8.ofNat d⟩, rest)

/-- The address that a number stands for. -/
def ofNat (n : Nat) : Ipv4 where
  a := UInt8.ofNat (n / 16777216)
  b := UInt8.ofNat (n / 65536)
  c := UInt8.ofNat (n / 256)
  d := UInt8.ofNat n

/-- The text of an address. -/
def text (ip : Ipv4) : String := s!"{ip.a}.{ip.b}.{ip.c}.{ip.d}"

/-- The address as two groups of the newer version. -/
def groups (ip : Ipv4) : List UInt16 :=
  [UInt16.ofNat (ip.a.toNat * 256 + ip.b.toNat), UInt16.ofNat (ip.c.toNat * 256 + ip.d.toNat)]

end Ipv4

/-! ## The newer version -/

namespace Ipv6

/-- How a group is written. -/
def group : NumberForm := { base := 16, most := 65535, places := some 4 }

/-- Up to so many groups at the beginning of a text, whether the last two of them were an
address of the older version, and the text after them. -/
def readGroups : Nat → Bool → List Char → List UInt16 × Bool × List Char
  | 0, _, text => ([], false, text)
  | others + 1, first, text =>
    match if first then some text else afterChar ':' text with
    | none => ([], false, text)
    | some rest =>
      match if others = 0 then none else Ipv4.read rest with
      | some (ip, rest) => (ip.groups, true, rest)
      | none =>
        match group.read rest with
        | none => ([], false, text)
        | some (g, rest) =>
          let (groups, older, rest) := readGroups others false rest
          (UInt16.ofNat g :: groups, older, rest)

/-- The address with some groups at its beginning, others at its end and zeros between. -/
def ofEnds (head tail : List UInt16) : Ipv6 where
  groups := Vector.ofFn fun i =>
    if i.val < head.length then head.getD i.val 0
    else if 8 - tail.length ≤ i.val then tail.getD (i.val - (8 - tail.length)) 0
    else 0

/-- The address at the beginning of a text. -/
def read (text : List Char) : Option (Ipv6 × List Char) :=
  let (head, older, rest) := readGroups 8 true text
  if head.length = 8 then some (ofEnds head [], rest)
  else if older then none
  else do
    let rest ← afterChar ':' (← afterChar ':' rest)
    let (tail, _, rest) := readGroups (7 - head.length) true rest
    return (ofEnds head tail, rest)

/-- The length of the run of zeros at the beginning of some groups. -/
def zeros (groups : List UInt16) : Nat := (groups.takeWhile (· == 0)).length

/-- Where the longest run of zeros begins and how long it is; of two the first. -/
def longestZeros (groups : List UInt16) : Nat × Nat :=
  (List.range groups.length).foldl (fun (start, length) i =>
    let here := zeros (groups.drop i)
    if length < here then (i, here) else (start, length)) (0, 0)

/-- Groups with colons between them. -/
def joined (groups : List UInt16) : String :=
  String.intercalate ":" (groups.map fun g => String.ofList (Nat.toDigits 16 g.toNat))

/-- The text of an address: of the runs of at least two zeros the longest is left out. -/
def text (ip : Ipv6) : String :=
  let groups := ip.groups.toList
  let (start, length) := longestZeros groups
  if length < 2 then joined groups
  else joined (groups.take start) ++ "::" ++ joined (groups.drop (start + length))

/-- The address of the older version that is mapped into the newer one so, if any. -/
def mapped? (ip : Ipv6) : Option Ipv4 :=
  match ip.groups.toList with
  | [0, 0, 0, 0, 0, 0xffff, high, low] => some (.ofNat (high.toNat * 65536 + low.toNat))
  | _ => none

/-- The text of an address in which a mapped address is written in the older way. -/
def mixedText (ip : Ipv6) : String :=
  match ip.mapped? with
  | some older => "::ffff:" ++ older.text
  | none => ip.text

end Ipv6

end Vitals
