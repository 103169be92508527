/-!
# Binary64 values, exactly

A finite binary64 number is an integer times a power of two, so every operation on it is
one exact operation on quotients of naturals followed by one rounding. `Magnitude` is the
number without its sign, `Magnitude.ofQuotient` is the rounding (to nearest, a half to the
even neighbour), and the product, quotient and sum below are that rounding applied to the
exact result. `Binary64` adds the sign, the infinities and the undefined value.
-/

namespace Vitals

/-- The integer nearest to `num / den`; a half goes to the even neighbour. -/
def roundHalfEven (num den : Nat) : Nat :=
  let quotient := num / den
  let twice := 2 * (num % den)
  if twice < den then quotient
  else if den < twice then quotient + 1
  else quotient + quotient % 2

/-- A finite binary64 number without its sign, `mant · 2 ^ exp`. -/
structure Magnitude where
  /-- The integer part of the representation, below `2 ^ 53`. -/
  mant : Nat
  /-- The exponent of two, from `-1074` to `971`. -/
  exp : Int
deriving Repr, DecidableEq, Inhabited

namespace Magnitude

/-- The least mantissa of 53 bits, which is `2 ^ 52`. -/
def leastFull : Nat := 4503599627370496

/-- The number zero. -/
def zero : Magnitude := ⟨0, -1074⟩

/-- The exact value is `x.num / x.den`. -/
def num (x : Magnitude) : Nat := x.mant * Nat.pow 2 x.exp.toNat

/-- The exact value is `x.num / x.den`. -/
def den (x : Magnitude) : Nat := Nat.pow 2 (-x.exp).toNat

theorem den_pos (x : Magnitude) : 0 < x.den := Nat.two_pow_pos _

/-- Whether the number is zero. -/
def isZero (x : Magnitude) : Bool := x.mant == 0

/-- `num / den` divided by `2 ^ exp`, rounded to an integer. -/
def scaled (num den : Nat) (exp : Int) : Nat :=
  roundHalfEven (num * Nat.pow 2 (-exp).toNat) (den * Nat.pow 2 exp.toNat)

/-- The exponent at which `num / den` has a mantissa of 53 bits, or the least exponent
there is. -/
def exponentFor (num den : Nat) : Int :=
  let estimate : Int := (num.log2 : Int) - den.log2
  let atLeast : Bool := den * Nat.pow 2 estimate.toNat ≤ num * Nat.pow 2 (-estimate).toNat
  max (-1074) ((if atLeast then estimate else estimate - 1) - 52)

/-- The magnitude nearest to `num / den`, a half going to the even mantissa; `none` when it
lies beyond the largest finite number. -/
def ofQuotient (num den : Nat) : Option Magnitude :=
  if num = 0 then some zero
  else
    let exp := exponentFor num den
    let mant := scaled num den exp
    let rounded : Magnitude := if mant = 2 * leastFull then ⟨leastFull, exp + 1⟩ else ⟨mant, exp⟩
    if rounded.exp ≤ 971 then some rounded else none

/-- The magnitude nearest to a natural number. -/
def ofNat (n : Nat) : Option Magnitude := ofQuotient n 1

/-- The product, rounded. -/
def mul (x y : Magnitude) : Option Magnitude := ofQuotient (x.num * y.num) (x.den * y.den)

/-- The quotient by a number that is not zero, rounded. -/
def div (x y : Magnitude) : Option Magnitude := ofQuotient (x.num * y.den) (x.den * y.num)

/-- The sum, rounded. -/
def add (x y : Magnitude) : Option Magnitude :=
  ofQuotient (x.num * y.den + y.num * x.den) (x.den * y.den)

/-- The integer part. -/
def floor (x : Magnitude) : Nat := x.num / x.den

/-- The nearest integer; a half goes up. -/
def roundHalfUp (x : Magnitude) : Nat := (2 * x.num + x.den) / (2 * x.den)

/-- The nearest multiple of `10 ^ -places`, as its number of such units; a half goes to the
even neighbour. -/
def unitsOf (places : Nat) (x : Magnitude) : Nat := roundHalfEven (x.num * Nat.pow 10 places) x.den

/-- The magnitude nearest to `coefficient · 10 ^ exponent`; `none` beyond the largest finite
number. The two guards decide without a large power: `coefficient` has `digits` digits, so
the value lies between `10 ^ (digits + exponent - 1)` and `10 ^ (digits + exponent)`. -/
def ofDecimal (coefficient : Nat) (exponent : Int) : Option Magnitude :=
  let digits : Int := (Nat.toDigits 10 coefficient).length
  if coefficient = 0 then some zero
  else if 311 ≤ digits + exponent then none
  else if digits + exponent ≤ -330 then some zero
  else ofQuotient (coefficient * Nat.pow 10 exponent.toNat) (Nat.pow 10 (-exponent).toNat)

end Magnitude

/-- A binary64 number. -/
inductive Binary64 where
  /-- A finite number; zero has two signs. -/
  | finite (negative : Bool) (size : Magnitude)
  /-- One of the two infinities. -/
  | infinite (negative : Bool)
  /-- The undefined value. -/
  | undefined
deriving Repr, DecidableEq, Inhabited

namespace Binary64

/-- A sign and a rounded size, where no size means beyond the largest finite number. -/
def ofSize (negative : Bool) : Option Magnitude → Binary64
  | some x => finite negative x
  | none => infinite negative

/-- The number nearest to `± coefficient · 10 ^ exponent`. -/
def ofDecimal (negative : Bool) (coefficient : Nat) (exponent : Int) : Binary64 :=
  ofSize negative (Magnitude.ofDecimal coefficient exponent)

end Binary64

end Vitals
