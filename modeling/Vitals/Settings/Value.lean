import Vitals.Binary64.Literal
import Vitals.Binary64.Shortest
import Vitals.Toml.Basic

/-!
# Values of settings

A setting is a text or a count. Its source may give it as a value of another type, which is
converted where that makes sense: numbers and words of truth to texts, and texts and numbers to
counts.
-/

namespace Vitals

/-- The value of a setting as its source gives it. -/
inductive Given where
  | text (s : String)
  | integer (n : Int)
  | real (x : Binary64)
  | flag (b : Bool)
  /-- A list or a table, which no setting is. -/
  | composite
deriving Repr, DecidableEq, Inhabited

namespace Given

/-- What a TOML document gives. -/
def ofToml : Toml → Given
  | .string s => text s
  | .integer n => integer n
  | .real x => real x
  | .flag b => flag b
  | .date s => text s
  | .list _ | .table _ => composite

/-- The text that a value is, if it is one. -/
def toText? : Given → Option String
  | text s => some s
  | integer n => some (toString n)
  | real x => some (x.render .plain)
  | flag b => some (if b then "true" else "false")
  | composite => none

/-- The greatest count. -/
def mostCount : Nat := 18446744073709551615

/-- The count that digits write, after a plus sign or without one. -/
def ofDigits? (s : String) : Option Nat :=
  let digits := match s.toList with
    | '+' :: rest => rest
    | chars => chars
  (decimal? digits).filter (· ≤ mostCount)

/-- The count that a text writes, in digits or as a word of truth in any case. -/
def textCount? (s : String) : Option Nat :=
  let word := s.toLower
  if word ∈ ["true", "on", "yes"] then some 1
  else if word ∈ ["false", "off", "no"] then some 0
  else ofDigits? s

/-- The count nearest to a number, a half counting in full. -/
def realCount : Binary64 → Nat
  | .finite negative size => if negative then 0 else min size.roundHalfUp mostCount
  | .infinite negative => if negative then 0 else mostCount
  | .undefined => 0

/-- The count that a value is, if it is one. -/
def toCount? : Given → Option Nat
  | text s => textCount? s
  | integer n => if n < 0 then none else some n.toNat
  | real x => some (realCount x)
  | flag b => some (if b then 1 else 0)
  | composite => none

end Given

end Vitals
