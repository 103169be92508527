import Vitals.Net.Ip
import Vitals.Url.Percent
import Vitals.Url.Name

/-!
# Hosts in URLs

The host of a URL is a name or an address. A name is read without regard to case and written
in ASCII; a name whose last label is a number is an address, which may be written in several
ways and is normalised.
-/

namespace Vitals.Host

/-- Whether a character must not stand in a host of any scheme. -/
def isForbidden (c : Char) : Bool :=
  c ∈ ['\x00', '\t', '\n', '\r', ' ', '#', '/', ':', '<', '>', '?', '@', '[', '\\', ']', '^', '|']

/-- Whether a character must not stand in a name. -/
def isForbiddenInName (c : Char) : Bool :=
  isForbidden c || c.toNat < 0x20 || c == '%' || c.toNat == 0x7f

/-! ## Numbers -/

/-- What a part of an address writes: a decimal number, an octal one after a zero or a
hexadecimal one after `0x`. -/
def number? (part : List Char) : Option Nat :=
  let inBase (base : Nat) (digits : List Char) : Option Nat :=
    if digits.all (isDigitIn base) then some (numberIn base digits) else none
  match part with
  | [] => none
  | '0' :: 'x' :: digits | '0' :: 'X' :: digits => inBase 16 digits
  | '0' :: d :: digits => inBase 8 (d :: digits)
  | digits => inBase 10 digits

/-- The parts of a name between its points, an empty one at the end left out. -/
def parts (name : List Char) : List (List Char) :=
  let all := name.splitOn '.'
  if 1 < all.length ∧ all.getLast? = some [] then all.dropLast else all

/-- Whether the last part of a name is a number. -/
def endsInNumber (name : List Char) : Bool :=
  match (parts name).getLast? with
  | some last => (!last.isEmpty && last.all Char.isDigit) || (number? last).isSome
  | none => false

/-- The address that numbers write: the last of them fills all octets that the others leave. -/
def address? (name : List Char) : Option Ipv4 := do
  let numbers ← (parts name).mapM number?
  let last ← numbers.getLast?
  let others := numbers.dropLast
  if 3 < others.length || others.any (255 < ·) || Nat.pow 256 (4 - others.length) ≤ last then none
  else
    let high := others.foldl (fun n octet => n * 256 + octet) 0
    some (.ofNat (high * Nat.pow 256 (4 - others.length) + last))

/-! ## Reading a host -/

/-- An address in brackets. -/
def bracketed? (inner : List Char) : Option String :=
  match inner.getLast? with
  | some ']' =>
    match Ipv6.read inner.dropLast with
    | some (ip, []) => some ("[" ++ ip.text ++ "]")
    | _ => none
  | _ => none

/-- The host of a URL of one of the schemes of the web. -/
def parse? (text : List Char) : Option String :=
  match text with
  | '[' :: inner => bracketed? inner
  | text => do
    let name ← HostName.toAscii? (← Utf8.decode? (Percent.decode text))
    if name.isEmpty || name.any isForbiddenInName then none
    else if endsInNumber name then (address? name).map (·.text)
    else some (String.ofList name)

/-- The host of a URL of another scheme, which is taken as it is. -/
def opaque? (text : List Char) : Option String :=
  match text with
  | '[' :: inner => bracketed? inner
  | text =>
    if text.any isForbidden then none
    else some (String.ofList (Percent.encode (fun c => 0x20 ≤ c.toNat ∧ c.toNat < 0x7f) text))

end Vitals.Host
