/-!
# Labels of names in ASCII

A label of a host name with other characters than ASCII is written with the prefix `xn--`: its
ASCII characters first, then, as numbers of variable length in base 36, where in the label each
of the others stands. A number is the distance to the next insertion, and the digit at which it
ends is chosen by a bias that follows the distances.
-/

namespace Vitals.Punycode

/-- The digit of a value below 36. -/
def digit (value : Nat) : Char :=
  if value < 26 then Char.ofNat ('a'.toNat + value) else Char.ofNat ('0'.toNat + (value - 26))

/-- The value below which the digit at a place ends a number. -/
def threshold (bias place : Nat) : Nat :=
  if place ≤ bias then 1 else if bias + 26 ≤ place then 26 else place - bias

theorem threshold_pos (bias place : Nat) : 0 < threshold bias place := by
  unfold threshold
  split
  · omega
  · split <;> omega

/-- The digits of a number from a place on. -/
def number (bias place value : Nat) : List Char :=
  let t := threshold bias place
  if value < t then [digit value]
  else digit (t + (value - t) % (36 - t)) :: number bias (place + 36) ((value - t) / (36 - t))
termination_by value
decreasing_by
  have pos := threshold_pos bias place
  exact Nat.lt_of_le_of_lt (Nat.div_le_self _ _) (by omega)

/-- Divides a distance until it is small, counting the divisions. -/
def flatten (distance divisions : Nat) : Nat × Nat :=
  if 455 < distance then flatten (distance / 35) (divisions + 1) else (distance, divisions)
termination_by distance
decreasing_by exact Nat.div_lt_self (by omega) (by omega)

/-- The bias after a distance, of which the first is damped more than the others. -/
def adapt (distance handled : Nat) (first : Bool) : Nat :=
  let damped := if first then distance / 700 else distance / 2
  let (rest, divisions) := flatten (damped + damped / handled) 0
  divisions * 36 + 36 * rest / (rest + 38)

/-- What has been written of a label. -/
structure Progress where
  written : List Char := []
  /-- The distance since the last insertion. -/
  distance : Nat := 0
  bias : Nat := 72
  /-- How many characters of the label are written. -/
  handled : Nat

/-- Goes past a character of the label while the insertions of `code` are written. -/
def pass (basic code : Nat) (progress : Progress) (c : Char) : Progress :=
  if c.toNat < code then { progress with distance := progress.distance + 1 }
  else if c.toNat = code then
    { written := progress.written ++ number progress.bias 36 progress.distance
      distance := 0
      bias := adapt progress.distance (progress.handled + 1) (progress.handled = basic)
      handled := progress.handled + 1 }
  else progress

/-- Writes the insertions of each of the codes, in order, from `code` on. -/
def insertions (label : List Char) (basic : Nat) : List Nat → Nat → Progress → Progress
  | [], _, progress => progress
  | next :: others, code, progress =>
    let start := { progress with
      distance := progress.distance + (next - code) * (progress.handled + 1) }
    let done := label.foldl (pass basic next) start
    insertions label basic others (next + 1) { done with distance := done.distance + 1 }

/-- The codes of a list in order, each of them once. -/
def distinct (codes : List Nat) : List Nat := (codes.mergeSort (· ≤ ·)).eraseDups

/-- A label without its prefix. -/
def encode (label : List Char) : List Char :=
  let basic := label.filter (·.toNat < 0x80)
  let codes := distinct ((label.filter (0x80 ≤ ·.toNat)).map Char.toNat)
  let progress := insertions label basic.length codes 0x80 { handled := basic.length }
  basic ++ (if basic.isEmpty then [] else ['-']) ++ progress.written

/-! ## Reading -/

/-- The value of a digit. -/
def digitValue? (c : Char) : Option Nat :=
  if 'a' ≤ c ∧ c ≤ 'z' then some (c.toNat - 'a'.toNat)
  else if '0' ≤ c ∧ c ≤ '9' then some (c.toNat - '0'.toNat + 26)
  else none

/-- What has been read of a label. -/
structure Reading where
  label : List Char
  /-- The character inserted last. -/
  code : Nat := 0x80
  /-- The place from which the next insertion is counted. -/
  index : Nat := 0
  bias : Nat := 72
  /-- The number under way: its value so far, and the weight and place of its next digit. -/
  value : Nat := 0
  weight : Nat := 1
  place : Nat := 36

/-- Inserts the character that the number under way stands for. -/
def Reading.insert? (reading : Reading) : Option Reading :=
  let size := reading.label.length + 1
  let distance := reading.index + reading.value
  let code := reading.code + distance / size
  let (before, behind) := reading.label.splitAt (distance % size)
  if code.isValidChar then
    some
      { label := before ++ Char.ofNat code :: behind
        code
        index := distance % size + 1
        bias := adapt reading.value size (reading.index == 0) }
  else none

/-- Reads a digit of the number under way. -/
def Reading.step (reading : Reading) (c : Char) : Option Reading := do
  let digit ← digitValue? c
  let t := threshold reading.bias reading.place
  let reading := { reading with value := reading.value + digit * reading.weight }
  if digit < t then reading.insert?
  else some { reading with weight := reading.weight * (36 - t), place := reading.place + 36 }

/-- The label that is written so without its prefix. The last hyphen, unless it stands at the
beginning, ends the characters of ASCII. -/
def decode? (written : List Char) : Option (List Char) := do
  let tail := (written.reverse.takeWhile (· ≠ '-')).reverse
  let basic := written.take (written.length - tail.length - 1)
  let digits := if basic.isEmpty then written else tail
  if basic.any (0x80 ≤ ·.toNat) then none
  else
    let reading ← digits.foldlM Reading.step { label := basic }
    if reading.place = 36 then some reading.label else none

end Vitals.Punycode
