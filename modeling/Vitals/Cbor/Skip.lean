import Vitals.Cbor.Basic
import Vitals.Text.Utf8

/-!
# Passing over a binary item

An item that nobody asked for is passed over with all that it holds.
-/

namespace Vitals.Cbor

/-- What is left of an item that holds others: so many of them, or all up to the byte that
ends it. -/
abbrev Remaining := Option Nat

/-- Reads a text or a string of bytes of a known length, of which the kind is `kind`. -/
def readString (kind info : Nat) (s : List UInt8) : Except Fault (List UInt8) := do
  let (length, s) ← readNumber info s
  let (bytes, s) ← takeBytes length s
  if kind = 3 ∧ (Utf8.decode? bytes).isNone then .error .utf8 else .ok s

/-- Passes over the pieces of a text or a string of bytes of open length. -/
def skipPieces (kind : Nat) : Nat → List UInt8 → Except Fault (List UInt8)
  | 0, _ => .error .endOfInput
  | _ + 1, [] => .error .endOfInput
  | fuel + 1, b :: s =>
    if b = stop then .ok s
    else if kindOf b = kind ∧ infoOf b < 28 then
      match readString kind (infoOf b) s with
      | .error fault => .error fault
      | .ok s => skipPieces kind fuel s
    else .error (mismatch b s)

/-- Passes over what `frames` still hold, the innermost first. -/
def skipRemaining : Nat → List Remaining → List UInt8 → Except Fault (List UInt8)
  | _, [], s => .ok s
  | 0, _ :: _, _ => .error .endOfInput
  | fuel + 1, some 0 :: frames, s => skipRemaining fuel frames s
  | _ + 1, _ :: _, [] => .error .endOfInput
  | fuel + 1, frame :: frames, b :: s =>
    let kind := kindOf b
    let info := infoOf b
    if b = stop then
      match frame with
      | none => skipRemaining fuel frames s
      | some n => skipRemaining fuel (some (n - 1) :: frames) s
    else
      let after := frame.map (· - 1) :: frames
      let opened (size : Nat → Nat) : Except Fault (List UInt8) :=
        if info = 31 then skipRemaining fuel (none :: after) s
        else
          match readNumber info s with
          | .error fault => .error fault
          | .ok (n, s) => skipRemaining fuel (some (size n) :: after) s
      if kind = 2 ∨ kind = 3 then
        match if info = 31 then skipPieces kind (s.length + 1) s else readString kind info s with
        | .error fault => .error fault
        | .ok s => skipRemaining fuel after s
      else if kind = 4 then opened id
      else if kind = 5 then opened (2 * ·)
      else
        match readNumber info s with
        | .error fault => .error fault
        | .ok (_, s) => skipRemaining fuel (if kind = 6 then frame :: frames else after) s

/-- Passes over an item. Every byte takes at most two steps. -/
def skipItem (s : List UInt8) : Except Fault (List UInt8) :=
  skipRemaining (2 * s.length + 2) [some 1] s

end Vitals.Cbor
