import EntityDump.Numeric.Dyadic
/-!
# Shortest decimals

The decimal with the fewest digits that still reads back as a given double. All reals that round to the
double form an interval; for one, two, … digits the two decimals next to the double are tried until one
lies inside, and of two that do the nearer is taken.
-/

namespace EntityDump.Numeric

/-- The number `coefficient * 10^exponent`. -/
structure Decimal where
  /-- The significant digits as one number. -/
  coefficient : Nat
  /-- The power of ten. -/
  exponent : Int
  deriving DecidableEq, Repr

namespace Decimal

/-- The significant digits as text. -/
def digits (d : Decimal) : List Char :=
  Nat.toDigits 10 d.coefficient

/-- The power of ten of the first significant digit. -/
def leadingExponent (d : Decimal) : Int :=
  d.exponent + (d.digits.length : Int) - 1

/-- The same number without the zero that appears when rounding up reaches the next power of ten. -/
def reduced (d : Decimal) : Decimal :=
  if d.coefficient % 10 = 0 then ⟨d.coefficient / 10, d.exponent + 1⟩ else d

end Decimal

/-- Which of two equally near decimals is taken. -/
inductive Tie where
  /-- The one with an even last digit. -/
  | toEven
  /-- The one farther from zero. -/
  | up
  deriving DecidableEq, Repr

/-- The reals that round to a double, in units of a quarter of its last place: `low` and `high` around
`value`, each unit worth `2^unit`. -/
structure Interval where
  low : Nat
  value : Nat
  high : Nat
  unit : Int
  /-- The ends belong to the interval. -/
  closed : Bool

/-- The interval of a positive dyadic number. Below a power of two the doubles lie twice as close. -/
def Interval.of (d : Dyadic) : Interval where
  low := 4 * d.mantissa - (if d.mantissa = Nat.pow 2 52 ∧ d.exponent ≠ -1074 then 1 else 2)
  value := 4 * d.mantissa
  high := 4 * d.mantissa + 2
  unit := d.exponent - 2
  closed := d.mantissa % 2 == 0

/-- The number of decimal digits before the point; for a number below one, less the number of zeros
behind the point. -/
def Dyadic.decimalPlaces (d : Dyadic) : Int :=
  if d.numerator ≥ d.denominator then
    ((Nat.toDigits 10 (d.numerator / d.denominator)).length : Int)
  else
    ((Nat.toDigits 10 (d.numerator * Nat.pow 10 330 / d.denominator)).length : Int) - 330

/-- The nearest decimal to the interval's value on the grid of multiples of `10^k`, if one of the
neighbours lies in the interval. -/
def Interval.onGrid (i : Interval) (tie : Tie) (k : Int) : Option Decimal :=
  let scale := Nat.pow 2 i.unit.toNat * Nat.pow 10 (-k).toNat
  let grid := Nat.pow 2 (-i.unit).toNat * Nat.pow 10 k.toNat
  let below := i.value * scale / grid
  let inside (c : Nat) : Bool :=
    if i.closed then i.low * scale ≤ c * grid && c * grid ≤ i.high * scale
    else i.low * scale < c * grid && c * grid < i.high * scale
  let up := below + 1
  let toBelow := i.value * scale - below * grid
  let toUp := up * grid - i.value * scale
  let preferUp := toUp < toBelow || (toUp == toBelow && (tie == .up || below % 2 == 1))
  if inside below then some ⟨if inside up && preferUp then up else below, k⟩
  else if inside up then some ⟨up, k⟩
  else none

/-- The shortest decimal of a nonzero dyadic number. Seventeen digits always suffice. -/
def Dyadic.shortest (d : Dyadic) (tie : Tie) : Decimal :=
  let i := Interval.of d
  let places := d.decimalPlaces
  let found := (List.range 17).findSome? fun (n : Nat) => i.onGrid tie (places - 1 - (n : Int))
  (found.getD ⟨d.numerator / d.denominator, 0⟩).reduced

end EntityDump.Numeric
