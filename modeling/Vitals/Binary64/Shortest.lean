import Vitals.Binary64.Basic

/-!
# The fewest digits that read back

`Magnitude.shortest` gives the decimal with the fewest digits that rounds to a magnitude,
and of those the nearest to it. The reals that round to `m · 2 ^ e` form an interval
around it, its ends included when `m` is even; on the grid of decimals with a given number
of digits the candidates are the two neighbours of the exact value, and the first grid of
which a neighbour lies in the interval wins. `DecimalLayout` lays the digits out as text.
-/

namespace Vitals

/-- The decimal `digits · 10 ^ exponent`. -/
structure Decimal where
  digits : Nat
  exponent : Int
deriving Repr, DecidableEq, Inhabited

namespace Decimal

/-- The same decimal without trailing zeros in its digits. -/
def strip (d : Decimal) : Decimal :=
  if h : d.digits ≠ 0 ∧ d.digits % 10 = 0 then strip ⟨d.digits / 10, d.exponent + 1⟩ else d
termination_by d.digits
decreasing_by exact Nat.div_lt_self (Nat.pos_of_ne_zero h.1) (by decide)

end Decimal

namespace Magnitude

/-- The exponent of ten of the leading digit of a magnitude that is not zero. -/
def decimalOrder (x : Magnitude) : Int :=
  if x.den ≤ x.num then ((Nat.toDigits 10 (x.num / x.den)).length : Int) - 1
  else -((Nat.toDigits 10 ((x.den - 1) / x.num)).length : Int)

/-- Compares `count · 10 ^ order` with `quarters / 4` units in the last place of `x`. -/
def compareQuarters (x : Magnitude) (count : Nat) (order : Int) (quarters : Nat) : Ordering :=
  let exp := x.exp - 2
  compare (count * Nat.pow 10 order.toNat * Nat.pow 2 (-exp).toNat)
    (quarters * Nat.pow 2 exp.toNat * Nat.pow 10 (-order).toNat)

/-- Four times the mantissa of the lower end of the interval that rounds to `x`. The gap
below a power of two is half the gap above it. -/
def lowerQuarters (x : Magnitude) : Nat :=
  if x.mant = leastFull ∧ -1074 < x.exp then 4 * x.mant - 1 else 4 * x.mant - 2

/-- Whether `count · 10 ^ order` rounds to `x`. -/
def readsBack (x : Magnitude) (order : Int) (count : Nat) : Bool :=
  let inside (o : Ordering) (wanted : Ordering) : Bool :=
    o == wanted || (o == .eq && x.mant % 2 == 0)
  inside (x.compareQuarters count order x.lowerQuarters) .gt
    && inside (x.compareQuarters count order (4 * x.mant + 2)) .lt

/-- The number of units of `10 ^ order` below `x`, rounded down. -/
def countBelow (x : Magnitude) (order : Int) : Nat :=
  (x.num * Nat.pow 10 (-order).toNat) / (x.den * Nat.pow 10 order.toNat)

/-- The decimal of order `order` that reads back as `x` and is nearest to it, if any; a tie
goes to the even digit. -/
def candidate (x : Magnitude) (order : Int) : Option Decimal :=
  let below := x.countBelow order
  let above := below + 1
  match x.readsBack order below, x.readsBack order above with
  | false, false => none
  | true, false => some ⟨below, order⟩
  | false, true => some ⟨above, order⟩
  | true, true =>
    match x.compareQuarters (below + above) order (8 * x.mant) with
    | .gt => some ⟨below, order⟩
    | .lt => some ⟨above, order⟩
    | .eq => some ⟨below + below % 2, order⟩

/-- The decimal with the fewest digits that reads back as `x`; seventeen always do. -/
def shortest (x : Magnitude) : Decimal :=
  if x.isZero then ⟨0, 0⟩
  else
    let order := x.decimalOrder
    let found := (List.range 17).findSome? fun (n : Nat) => x.candidate (order - n)
    (found.getD ⟨x.countBelow (order - 16), order - 16⟩).strip

end Magnitude

/-- How a number in decimal digits is laid out as text. -/
structure DecimalLayout where
  /-- The least exponent of the leading digit that is written without an exponent. -/
  leastPlain : Int
  /-- The greatest exponent of the leading digit that is written without an exponent. -/
  mostPlain : Int
  /-- Whether an integer ends in a point and a zero. -/
  pointZero : Bool

namespace DecimalLayout

/-- The layout of a number in a data format: an exponent from `10 ^ 16` on and below
`10 ^ -5`, and a fraction always. -/
def data : DecimalLayout := ⟨-5, 15, true⟩

/-- The layout of a number in running text: never an exponent, a fraction only if there is
one. -/
def plain : DecimalLayout := ⟨-400, 400, false⟩

/-- The digits with a point set after the first `whole` of them. -/
def positional (pointZero : Bool) (digits : List Char) (whole : Int) : List Char :=
  if whole ≤ 0 then '0' :: '.' :: List.replicate (-whole).toNat '0' ++ digits
  else if (digits.length : Int) ≤ whole then
    digits ++ List.replicate (whole.toNat - digits.length) '0'
      ++ (if pointZero then ['.', '0'] else [])
  else digits.take whole.toNat ++ '.' :: digits.drop whole.toNat

/-- The text of a decimal whose digits do not end in zero. -/
def render (layout : DecimalLayout) (d : Decimal) : List Char :=
  if d.digits = 0 then if layout.pointZero then ['0', '.', '0'] else ['0']
  else
    let digits := Nat.toDigits 10 d.digits
    let lead : Int := d.exponent + digits.length - 1
    if layout.leastPlain ≤ lead ∧ lead ≤ layout.mostPlain then
      positional layout.pointZero digits (lead + 1)
    else
      let fraction := match digits.drop 1 with
        | [] => []
        | rest => '.' :: rest
      digits.take 1 ++ fraction ++ 'e' :: (if lead < 0 then '-' else '+') ::
        Nat.toDigits 10 lead.natAbs

end DecimalLayout

/-- The text of a binary64 number. -/
def Binary64.render (layout : DecimalLayout) : Binary64 → String
  | .finite negative x =>
    String.ofList ((if negative then ['-'] else []) ++ layout.render x.shortest)
  | .infinite negative => if negative then "-inf" else "inf"
  | .undefined => "NaN"

end Vitals
