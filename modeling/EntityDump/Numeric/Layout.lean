import EntityDump.Numeric.Shortest
/-!
# Layout of numbers as text

A layout says how the significant digits of a decimal are written: between which powers of ten the point
stands in its place, whether a whole number keeps a fraction, and how ties are broken. `jsonLayout` is the
layout of numbers in JSON, `plainLayout` that of numbers in prose. `fixedText` writes a fixed number of
places of the exact value instead.
-/

namespace EntityDump.Numeric

/-- How decimals are written. -/
structure Layout where
  /-- Least power of ten of the first digit that is written with the point in its place. -/
  positionalFrom : Option Int
  /-- Greatest such power of ten. -/
  positionalTo : Option Int
  /-- A whole number ends in a point and a zero. -/
  wholeFraction : Bool
  /-- Which of two equally near decimals is taken. -/
  tie : Tie

/-- Numbers in JSON: positional between `1e-5` and `1e15`, always with a fraction; else an exponent with
its sign. -/
def jsonLayout : Layout := ⟨some (-5), some 15, true, .toEven⟩

/-- Numbers in prose: always positional, whole numbers without a fraction. -/
def plainLayout : Layout := ⟨none, none, false, .up⟩

namespace Layout

/-- The layout writes the point in its place when the first digit stands at this power of ten. -/
def isPositional (l : Layout) (leading : Int) : Bool :=
  (l.positionalFrom.all (· ≤ leading)) && (l.positionalTo.all (leading ≤ ·))

/-- The digits of a decimal with the point in its place. -/
def positional (l : Layout) (d : Decimal) : List Char :=
  let digits := d.digits
  let leading := d.leadingExponent
  if leading < 0 then
    '0' :: '.' :: (List.replicate (-leading - 1).toNat '0' ++ digits)
  else
    let whole := leading.toNat + 1
    if digits.length ≤ whole then
      digits ++ List.replicate (whole - digits.length) '0' ++
        (if l.wholeFraction then ['.', '0'] else [])
    else digits.take whole ++ '.' :: digits.drop whole

/-- One digit before the point, the others behind it, and the exponent with its sign. -/
def scientific (d : Decimal) : List Char :=
  let leading := d.leadingExponent
  let mantissa :=
    match d.digits with
    | [] => []
    | [c] => [c]
    | c :: cs => c :: '.' :: cs
  let sign := if leading < 0 then '-' else '+'
  mantissa ++ 'e' :: sign :: Nat.toDigits 10 leading.natAbs

/-- The text of a finite double. -/
def dyadicText (l : Layout) (d : Dyadic) : String :=
  let magnitude :=
    if d.mantissa = 0 then (if l.wholeFraction then ['0', '.', '0'] else ['0'])
    else
      let shortest := d.shortest l.tie
      if l.isPositional shortest.leadingExponent then l.positional shortest
      else scientific shortest
  String.ofList (if d.negative then '-' :: magnitude else magnitude)

end Layout

/-- The text of a double that is infinite or not a number. -/
def nonFiniteText (x : Float) : String :=
  if x > 0 then "inf" else if x < 0 then "-inf" else "NaN"

/-- The text of a double in a layout. -/
def floatText (l : Layout) (x : Float) : String :=
  match Dyadic.ofFloat? x with
  | some d => l.dyadicText d
  | none => nonFiniteText x

/-- The text of a double with a fixed number of places, halves going to the even neighbour. -/
def fixedText (places : Nat) (x : Float) : String :=
  match Dyadic.ofFloat? x with
  | none => nonFiniteText x
  | some d =>
    let scaled := divRoundEven (d.numerator * Nat.pow 10 places) d.denominator
    let digits := Nat.toDigits 10 scaled
    let padded := List.replicate (places + 1 - digits.length) '0' ++ digits
    let whole := padded.take (padded.length - places)
    let fraction := padded.drop (padded.length - places)
    let magnitude := if places = 0 then whole else whole ++ '.' :: fraction
    String.ofList (if d.negative then '-' :: magnitude else magnitude)

end EntityDump.Numeric
