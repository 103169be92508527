import Vitals.Binary64.Literal
import Vitals.Toml.Basic
import Vitals.Toml.Text

/-!
# Numbers and dates in TOML

A value that is neither quoted nor in brackets is one word, or a date and a time with a space
between them. `Toml.ofWord?` says what a word stands for.
-/

namespace Vitals.Toml

/-! ## Numbers -/

/-- Digits of a base without the low lines between them. -/
def plainDigits? (base : Nat) (text : List Char) : Option (List Char) :=
  let groups := text.splitOn '_'
  if groups.all fun group => !group.isEmpty && group.all (isDigitIn base) then some groups.flatten
  else none

/-- An integer, if it is in the range of 64 bits. -/
def ofInteger (n : Int) : Option Toml :=
  if -9223372036854775808 ≤ n ∧ n ≤ 9223372036854775807 then some (.integer n) else none

/-- Digits of a decimal number without a zero before others. -/
def decimalDigits? (text : List Char) : Option (List Char) :=
  match plainDigits? 10 text with
  | some ('0' :: _ :: _) => none
  | digits => digits

/-- The number before the point, the fraction and the exponent of a number; the last two with
their marks. -/
def splitNumber (text : List Char) : List Char × List Char × List Char :=
  let isMark (c : Char) : Bool := c == 'e' || c == 'E'
  let front := text.takeWhile (!isMark ·)
  (front.takeWhile (· ≠ '.'), front.dropWhile (· ≠ '.'), text.dropWhile (!isMark ·))

/-- A fraction without low lines. -/
def fraction? : List Char → Option (List Char)
  | [] => some []
  | point :: digits => (plainDigits? 10 digits).map (point :: ·)

/-- An exponent without low lines. -/
def exponent? : List Char → Option (List Char)
  | [] => some []
  | mark :: '+' :: digits => (plainDigits? 10 digits).map (mark :: '+' :: ·)
  | mark :: '-' :: digits => (plainDigits? 10 digits).map (mark :: '-' :: ·)
  | mark :: digits => (plainDigits? 10 digits).map (mark :: ·)

/-- A number in decimal digits, without its sign; one beyond the largest finite number is
none. -/
def decimal? (negative : Bool) (text : List Char) : Option Toml := do
  let (whole, fraction, exponent) := splitNumber text
  let whole ← decimalDigits? whole
  if fraction.isEmpty && exponent.isEmpty then
    let n : Int := numberIn 10 whole
    ofInteger (if negative then -n else n)
  else
    let digits := whole ++ (← fraction? fraction) ++ (← exponent? exponent)
    match Binary64.read ((if negative then ['-'] else []) ++ digits) with
    | .ok (.finite sign size) => some (.real (.finite sign size))
    | _ => none

/-- A number after its sign. -/
def signed? (negative : Bool) (text : List Char) : Option Toml :=
  match String.ofList text with
  | "inf" => some (.real (.infinite negative))
  | "nan" => some (.real .undefined)
  | _ => decimal? negative text

/-- A number. -/
def number? : List Char → Option Toml
  | '0' :: 'x' :: digits => (plainDigits? 16 digits).bind fun d => ofInteger (numberIn 16 d)
  | '0' :: 'o' :: digits => (plainDigits? 8 digits).bind fun d => ofInteger (numberIn 8 d)
  | '0' :: 'b' :: digits => (plainDigits? 2 digits).bind fun d => ofInteger (numberIn 2 d)
  | '+' :: rest => signed? false rest
  | '-' :: rest => signed? true rest
  | text => signed? false text

/-! ## Dates and times -/

/-- A number of so many digits within bounds. -/
def readPart (count least most : Nat) (text : List Char) : Option (List Char × List Char) :=
  let digits := text.take count
  let number := numberIn 10 digits
  if digits.length = count ∧ digits.all Char.isDigit ∧ least ≤ number ∧ number ≤ most then
    some (digits, text.drop count)
  else none

/-- What follows a character. -/
def after (c : Char) : List Char → Option (List Char)
  | [] => none
  | d :: rest => if d = c then some rest else none

/-- The days of a month. -/
def daysIn (year month : Nat) : Nat :=
  if month = 2 then
    if year % 4 = 0 ∧ (year % 100 ≠ 0 ∨ year % 400 = 0) then 29 else 28
  else if month = 4 ∨ month = 6 ∨ month = 9 ∨ month = 11 then 30
  else 31

/-- A day. -/
def readDay (text : List Char) : Option (List Char × List Char) := do
  let (year, rest) ← readPart 4 0 9999 text
  let (month, rest) ← readPart 2 1 12 (← after '-' rest)
  let (day, rest) ← readPart 2 1 (daysIn (numberIn 10 year) (numberIn 10 month)) (← after '-' rest)
  return (year ++ '-' :: month ++ '-' :: day, rest)

/-- The part of a second, of which nine digits count. -/
def readSubsecond : List Char → Option (List Char × List Char)
  | '.' :: rest =>
    let digits := rest.takeWhile Char.isDigit
    if digits.isEmpty then none
    else
      let kept := ((digits.take 9).reverse.dropWhile (· == '0')).reverse
      some ('.' :: (if kept.isEmpty then ['0'] else kept), rest.dropWhile Char.isDigit)
  | rest => some ([], rest)

/-- A time of the day; the seconds may be left out. -/
def readTime (text : List Char) : Option (List Char × List Char) := do
  let (hour, rest) ← readPart 2 0 23 text
  let (minute, rest) ← readPart 2 0 59 (← after ':' rest)
  match rest with
  | ':' :: rest =>
    let (second, rest) ← readPart 2 0 60 rest
    let (subsecond, rest) ← readSubsecond rest
    return (hour ++ ':' :: minute ++ ':' :: second ++ subsecond, rest)
  | rest => return (hour ++ ':' :: minute, rest)

/-- The distance from the time of the prime meridian, which ends the text. -/
def offset? : List Char → Option (List Char)
  | [] => some []
  | ['Z'] | ['z'] => some ['Z']
  | sign :: rest => do
    if sign ≠ '+' ∧ sign ≠ '-' then none
    let (hour, rest) ← readPart 2 0 23 rest
    let (minute, rest) ← readPart 2 0 59 (← after ':' rest)
    let sign := if numberIn 10 (hour ++ minute) = 0 then '+' else sign
    if rest.isEmpty then some (sign :: hour ++ ':' :: minute) else none

/-- A date, a time or both. -/
def date? (text : List Char) : Option Toml :=
  match readDay text with
  | some (day, []) => some (.date (String.ofList day))
  | some (day, mark :: rest) => do
    if mark ≠ 'T' ∧ mark ≠ 't' ∧ mark ≠ ' ' then none
    let (time, rest) ← readTime rest
    return .date (String.ofList (day ++ 'T' :: time ++ (← offset? rest)))
  | none =>
    match readTime text with
    | some (time, []) => some (.date (String.ofList time))
    | _ => none

/-! ## Words -/

/-- What a word stands for. -/
def ofWord? (word : List Char) : Option Toml :=
  match String.ofList word with
  | "true" => some (.flag true)
  | "false" => some (.flag false)
  | _ => if word.contains ':' || (readDay word).isSome then date? word else number? word

/-- Whether a character may stand in a word. -/
def isWordChar (c : Char) : Bool := isBare c || c == '+' || c == '.' || c == ':'

/-- A word, or a date and a time with a space between them, and what it stands for. -/
def readWord (text : List Char) : Option (Toml × List Char) :=
  let word := text.takeWhile isWordChar
  let rest := text.dropWhile isWordChar
  let isDay := match readDay word with
    | some (_, []) => true
    | _ => false
  let (word, rest) := match rest with
    | ' ' :: next :: others =>
      if isDay && next.isDigit then
        (word ++ ' ' :: (next :: others).takeWhile isWordChar,
          (next :: others).dropWhile isWordChar)
      else (word, rest)
    | rest => (word, rest)
  (ofWord? word).map (·, rest)

end Vitals.Toml
