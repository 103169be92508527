import Vitals.Net.Ip

/-!
# Where a server listens

An address and a port. `SocketAddress.parse?` reads exactly the texts in which both are
numbers; names are not looked up.
-/

namespace Vitals

/-- An address with a port. -/
inductive SocketAddress where
  | v4 (ip : Ipv4) (port : UInt16)
  /-- The scope says on which of its networks an address is meant. -/
  | v6 (ip : Ipv6) (scope : UInt32) (port : UInt16)
deriving Repr, DecidableEq, Inhabited

namespace SocketAddress

/-- How a port is written. -/
def portForm : NumberForm := { most := 65535 }

/-- How a scope is written. -/
def scopeForm : NumberForm := { most := 4294967295 }

/-- The port at the end of a text. -/
def port? (text : List Char) : Option UInt16 := do
  let (port, rest) ← portForm.read (← afterChar ':' text)
  if rest.isEmpty then some (UInt16.ofNat port) else none

/-- The scope at the beginning of a text, or none. -/
def readScope (text : List Char) : UInt32 × List Char :=
  match (afterChar '%' text).bind scopeForm.read with
  | some (scope, rest) => (UInt32.ofNat scope, rest)
  | none => (0, text)

/-- The address that is the whole of a text. -/
def parse? (text : String) : Option SocketAddress :=
  match text.toList with
  | '[' :: inner => do
    let (ip, rest) ← Ipv6.read inner
    let (scope, rest) := readScope rest
    return .v6 ip scope (← port? (← afterChar ']' rest))
  | outer => do
    let (ip, rest) ← Ipv4.read outer
    return .v4 ip (← port? rest)

/-- The text of an address. -/
def text : SocketAddress → String
  | v4 ip port => s!"{ip.text}:{port}"
  | v6 ip scope port =>
    let scope := if scope = 0 then "" else s!"%{scope}"
    s!"[{ip.mixedText}{scope}]:{port}"

end SocketAddress

end Vitals
