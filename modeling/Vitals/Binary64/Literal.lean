import Vitals.Binary64.Basic
import Vitals.Text.Digits

/-!
# Decimal literals

`Binary64.read` reads a binary64 number from a whole text: a sign, digits with a point
anywhere among them, and an exponent, or one of the words for an infinity and for the
undefined value, in any letter case. The result is the number nearest to the literal.
-/

namespace Vitals

/-- Why a text is not a decimal literal. -/
inductive LiteralFault where
  /-- There is no text at all. -/
  | empty
  /-- The text is not of the form of a literal. -/
  | malformed
deriving Repr, DecidableEq, Inhabited

namespace LiteralFault

/-- The wording of the fault. -/
def message : LiteralFault → String
  | empty => "cannot parse float from empty string"
  | malformed => "invalid float literal"

end LiteralFault

/-- An optional sign, `true` for a minus, and what follows it. -/
def splitSign : List Char → Bool × List Char
  | '+' :: rest => (false, rest)
  | '-' :: rest => (true, rest)
  | text => (false, text)

/-- The exponent that ends a literal: nothing, or the mark, an optional sign and digits. -/
def readExponent : List Char → Option Int
  | [] => some 0
  | mark :: text =>
    let (negative, digits) := splitSign text
    if mark == 'e' || mark == 'E' then
      (decimal? digits).map fun exponent => if negative then -(exponent : Int) else exponent
    else none

/-- The digits after an optional point, and what follows them. -/
def splitFraction : List Char → List Char × List Char
  | '.' :: text => (text.takeWhile Char.isDigit, text.dropWhile Char.isDigit)
  | text => ([], text)

/-- The coefficient and the exponent of ten of a literal without sign. -/
def readDecimal (text : List Char) : Option (Nat × Int) :=
  let whole := text.takeWhile Char.isDigit
  let (fraction, rest) := splitFraction (text.dropWhile Char.isDigit)
  if whole.isEmpty && fraction.isEmpty then none
  else (readExponent rest).map fun exponent =>
    (numberIn 10 (whole ++ fraction), exponent - fraction.length)

namespace Binary64

/-- The number that the whole text writes. -/
def read (text : List Char) : Except LiteralFault Binary64 :=
  if text.isEmpty then .error .empty
  else
    let (negative, body) := splitSign text
    match readDecimal body with
    | some (coefficient, exponent) => .ok (ofDecimal negative coefficient exponent)
    | none =>
      let word := String.ofList (body.map Char.toLower)
      if word = "inf" ∨ word = "infinity" then .ok (infinite negative)
      else if word = "nan" then .ok undefined
      else .error .malformed

end Binary64

end Vitals
