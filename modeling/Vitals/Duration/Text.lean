import Vitals.Binary64.Literal
import Vitals.Duration.Basic
import Vitals.Text.Blank

/-!
# Durations as people write them

`Duration.parse` reads a number followed by one of seven units; the number is a binary64
literal, its product with the unit is rounded as binary64 products are, and the whole
nanoseconds of the product are kept, at most `2 ^ 64 - 1`. `Duration.display` writes a
duration with at most two decimals.
-/

namespace Vitals

/-- Why a text is not a duration. -/
inductive DurationFault where
  /-- The text ends in no unit. -/
  | unknownFormat (text : String)
  /-- What precedes the unit is not a number. -/
  | number (fault : LiteralFault)
  /-- The number is negative or not finite. -/
  | outOfRange (text : String)
deriving Repr, DecidableEq, Inhabited

/-- The wording of the fault. -/
def DurationFault.message : DurationFault → String
  | unknownFormat text => s!"Unknown duration format: {text}"
  | number fault => fault.message
  | outOfRange text => s!"Duration must be a non-negative number: {text}"

namespace Duration

/-- The units with their lengths in nanoseconds, in the order in which an ending is looked
for. -/
def units : List (List Char × Nat) :=
  [(['n', 's'], 1),
   (['µ', 's'], 1000),
   (['u', 's'], 1000),
   (['m', 's'], 1000000),
   (['s'], 1000000000),
   (['m'], 60000000000),
   (['h'], 3600000000000)]

/-- The longest duration that a text can give. -/
def longest : Nat := 18446744073709551615

/-- The whole nanoseconds of `count` units of `unit` nanoseconds, at most `longest`; `none`
for a count that is negative or not finite. -/
def ofCount (unit : Nat) : Binary64 → Option Duration
  | .finite negative x =>
    if negative && !x.isZero then none
    else
      match (Magnitude.ofNat unit).bind x.mul with
      | some product => some ⟨min product.floor longest⟩
      | none => some ⟨longest⟩
  | _ => none

/-- The duration that a text writes, any white space around it left out. -/
def parse (text : String) : Except DurationFault Duration :=
  let body := trim text.toList
  match units.findSome? fun (ending, unit) => (dropEnd? ending body).map (·, unit) with
  | none => .error (.unknownFormat (String.ofList body))
  | some (number, unit) =>
    match Binary64.read (trim number) with
    | .error fault => .error (.number fault)
    | .ok count =>
      match ofCount unit count with
      | some d => .ok d
      | none => .error (.outOfRange (String.ofList body))

/-- The duration in seconds, as the rounded sum of its whole seconds and the rounded
fraction. -/
def seconds (d : Duration) : Magnitude :=
  let sum := do
    let whole ← Magnitude.ofNat d.secs
    let fraction ← Magnitude.ofQuotient d.subsecNanos perSecond
    whole.add fraction
  sum.getD .zero

/-- A magnitude with two decimals. -/
def twoDecimals (x : Magnitude) : String :=
  let units := x.unitsOf 2
  s!"{units / 100}." ++ String.ofList ((Nat.toDigits 10 (units % 100)).leftpad 2 '0')

/-- The text of a duration for a reader: whole microseconds below a millisecond, whole
milliseconds below a second, and seconds from there on. -/
def display (d : Duration) : String :=
  if d.nanos = 0 then "0s"
  else if d.nanos < 1000000 then s!"{d.nanos / 1000}µs"
  else if d.nanos < perSecond then s!"{d.millis}ms"
  else if d.subsecNanos = 0 then s!"{d.secs}s"
  else twoDecimals d.seconds ++ "s"

end Duration

end Vitals
