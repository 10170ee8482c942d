/-! # The shortest decimal of a floating-point number

A finite floating-point number is a mantissa times a power of two, and it is
what every decimal in a certain interval around it is read as. Among the
decimals in that interval with the fewest digits, the one nearest to the number
is its shortest decimal. All of this is decided in whole numbers.
-/

namespace CodeListing.Decimal

/-- A decimal without sign: `digits` times ten to the power `exponent`. -/
structure Numeral where
  /-- The significant digits as a number. -/
  digits : Nat
  /-- The power of ten of the last digit. -/
  exponent : Int
  deriving Repr, DecidableEq

/-- A fraction of whole numbers, with the half-widths of the interval of the numbers
that are read as it, all over one denominator. -/
structure Interval where
  /-- The numerator of the number itself. -/
  value : Nat
  /-- How far the interval reaches down. -/
  below : Nat
  /-- How far the interval reaches up. -/
  above : Nat
  /-- Whether the ends belong to the interval. -/
  closed : Bool
  /-- The common denominator. -/
  denominator : Nat
  deriving Repr, DecidableEq

namespace Interval

/-- The interval of the double with these bits, sign apart. Just above a power of two
the neighbour below is only half as far as the neighbour above. -/
def ofBits (bits : UInt64) : Interval :=
  let fraction := bits.toNat % Nat.pow 2 52
  let biased := bits.toNat / Nat.pow 2 52 % Nat.pow 2 11
  let mantissa := if biased = 0 then fraction else fraction + Nat.pow 2 52
  let power := max biased 1
  let below := if fraction = 0 && 1 < biased then 1 else 2
  -- the unit is a quarter of the last place: two to the power `power - 1077`
  let numerator := Nat.pow 2 (power - 1077)
  { value := 4 * mantissa * numerator
    below := below * numerator
    above := 2 * numerator
    closed := mantissa % 2 = 0
    denominator := Nat.pow 2 (1077 - power) }

/-- Whether `count` times ten to the power `exponent` lies in the interval. -/
def contains (interval : Interval) (count : Nat) (exponent : Int) : Bool :=
  let scaled := count * Nat.pow 10 exponent.toNat * interval.denominator
  let unit := Nat.pow 10 (-exponent).toNat
  let low := (interval.value - interval.below) * unit
  let high := (interval.value + interval.above) * unit
  if interval.closed then low ≤ scaled && scaled ≤ high else low < scaled && scaled < high

/-- The multiple of ten to the power `exponent` at or below the number. -/
def floor (interval : Interval) (exponent : Int) : Nat :=
  interval.value * Nat.pow 10 (-exponent).toNat / (interval.denominator * Nat.pow 10 exponent.toNat)

/-- Whether the multiple above the number is the nearer one; a tie goes to the even one. -/
def isNearerAbove (interval : Interval) (exponent : Int) : Bool :=
  let step := interval.denominator * Nat.pow 10 exponent.toNat
  let twice := 2 * (interval.value * Nat.pow 10 (-exponent).toNat % step)
  step < twice || (step = twice && interval.floor exponent % 2 = 1)

/-- The nearest multiple of ten to the power `exponent` in the interval, which is one of
the two around the number. -/
def onGrid? (interval : Interval) (exponent : Int) : Option Numeral :=
  let floor := interval.floor exponent
  let order := if interval.isNearerAbove exponent then [floor + 1, floor] else [floor, floor + 1]
  (order.find? (interval.contains · exponent)).map (⟨·, exponent⟩)

/-- The shortest decimal of the number: the coarsest grid that meets the interval, from
ten to the power 309 down. Every interval holds a decimal of seventeen digits, so the
last grid is never needed. -/
def shortest (interval : Interval) : Numeral :=
  ((List.range 700).findSome? fun (step : Nat) => interval.onGrid? (309 - step)).getD ⟨0, 0⟩

end Interval

structure Format where
  /-- The least exponent of the first digit for which no exponent is written. -/
  least : Int
  /-- The greatest exponent of the first digit for which no exponent is written. -/
  greatest : Int
  deriving Repr, DecidableEq

namespace Format

/-- The digits with a point after the first `count` of them, and a zero where a side of
the point would have none. -/
def withPoint (digits : List Char) (count : Nat) : List Char :=
  let whole := digits.take count
  let part := digits.drop count
  (if whole.isEmpty then ['0'] else whole) ++ '.' :: (if part.isEmpty then ['0'] else part)

def write (format : Format) (decimal : Numeral) : List Char :=
  let digits := (toString decimal.digits).toList
  -- the exponent of the first digit
  let leading := decimal.exponent + (digits.length - 1 : Nat)
  if format.least ≤ leading && leading ≤ format.greatest then
    if leading < 0 then
      withPoint (List.replicate (-leading - 1).toNat '0' ++ digits) 0
    else
      let whole := leading.toNat + 1
      withPoint (digits ++ List.replicate (whole - digits.length) '0') whole
  else
    let mantissa := if digits.length = 1 then digits else withPoint digits 1
    mantissa ++ 'e' :: (if leading < 0 then '-' else '+') ::
      (toString leading.natAbs).toList

end Format

end CodeListing.Decimal
