/-!
# Durations

A duration is a whole number of nanoseconds. `Duration.text` writes it in full, in the
largest unit of which it holds one, with as many decimals as it needs.
-/

namespace Vitals

/-- A length of time in nanoseconds. -/
structure Duration where
  nanos : Nat
deriving Repr, DecidableEq, Inhabited

namespace Duration

/-- Nanoseconds in a second. -/
def perSecond : Nat := 1000000000

/-- So many whole seconds. -/
def ofSecs (secs : Nat) : Duration := ⟨secs * perSecond⟩

/-- So many whole milliseconds. -/
def ofMillis (millis : Nat) : Duration := ⟨millis * 1000000⟩

/-- The whole seconds. -/
def secs (d : Duration) : Nat := d.nanos / perSecond

/-- The nanoseconds beyond the whole seconds. -/
def subsecNanos (d : Duration) : Nat := d.nanos % perSecond

/-- The whole milliseconds. -/
def millis (d : Duration) : Nat := d.nanos / 1000000

/-- The milliseconds, a part of one counting in full. -/
def millisUp (d : Duration) : Nat := (d.nanos + 999999) / 1000000

/-- Whether the duration is empty. -/
def isZero (d : Duration) : Bool := d.nanos == 0

/-- The digits of `part`, which is below `10 ^ places`, after a point and without the zeros
at its end; nothing at all when there are only zeros. -/
def decimals (places part : Nat) : String :=
  let digits := (Nat.toDigits 10 part).leftpad places '0'
  match (digits.reverse.dropWhile (· == '0')).reverse with
  | [] => ""
  | kept => "." ++ String.ofList kept

/-- The exact text of a duration, such as `1.5s`, `999.999µs` or `0ns`. -/
def text (d : Duration) : String :=
  let n := d.nanos
  if perSecond ≤ n then s!"{n / perSecond}" ++ decimals 9 (n % perSecond) ++ "s"
  else if 1000000 ≤ n then s!"{n / 1000000}" ++ decimals 6 (n % 1000000) ++ "ms"
  else if 1000 ≤ n then s!"{n / 1000}" ++ decimals 3 (n % 1000) ++ "µs"
  else s!"{n}ns"

end Duration

end Vitals
