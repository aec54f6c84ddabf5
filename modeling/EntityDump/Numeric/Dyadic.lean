/-!
# Finite doubles as dyadic numbers

A finite double is a sign, a natural mantissa and a power of two. What needs its exact value (printing,
rounding to a whole number, reading a date from it) works on these parts in whole numbers.
-/

namespace EntityDump.Numeric

/-- The number `(-1)^negative * mantissa * 2^exponent`. -/
structure Dyadic where
  /-- The sign is a minus. -/
  negative : Bool
  /-- The whole number that the power of two scales. -/
  mantissa : Nat
  /-- The power of two. -/
  exponent : Int
  deriving DecidableEq, Repr

/-- The parts of a double; infinities and not-a-number have none. -/
def Dyadic.ofFloat? (x : Float) : Option Dyadic :=
  let bits : Nat := x.toBits.toNat
  let biased : Nat := bits / Nat.pow 2 52 % Nat.pow 2 11
  let fraction : Nat := bits % Nat.pow 2 52
  let negative := bits / Nat.pow 2 63 == 1
  if biased = 2047 then none
  else if biased = 0 then some ⟨negative, fraction, -1074⟩
  else some ⟨negative, fraction + Nat.pow 2 52, (biased : Int) - 1075⟩

/-- The double is neither infinite nor not-a-number. -/
def isFinite (x : Float) : Bool :=
  (Dyadic.ofFloat? x).isSome

namespace Dyadic

/-- Numerator of the magnitude as a fraction. -/
def numerator (d : Dyadic) : Nat :=
  d.mantissa * Nat.pow 2 d.exponent.toNat

/-- Denominator of the magnitude as a fraction. -/
def denominator (d : Dyadic) : Nat :=
  Nat.pow 2 (-d.exponent).toNat

/-- The number is whole. -/
def isWhole (d : Dyadic) : Bool :=
  d.numerator % d.denominator == 0

/-- The whole number next to zero. -/
def truncate (d : Dyadic) : Int :=
  let magnitude : Int := (d.numerator / d.denominator : Nat)
  if d.negative then -magnitude else magnitude

/-- The nearest whole number to the magnitude, halves going up. -/
def roundMagnitude (d : Dyadic) : Nat :=
  (2 * d.numerator + d.denominator) / (2 * d.denominator)

end Dyadic

/-- The quotient rounded to the nearest whole number, halves going to the even neighbour. -/
def divRoundEven (num den : Nat) : Nat :=
  let q := num / den
  let r := num % den
  if 2 * r > den || (2 * r == den && q % 2 == 1) then q + 1 else q

end EntityDump.Numeric
