import EntityDump.Text.DecimalDigit
/-!
# Numbers written as text

Reading whole numbers and decimal fractions from text. A whole number has an optional sign and ASCII
digits. A decimal fraction has an optional sign, digits with an optional point among them, and an optional
exponent, or is one of the words for infinity and not-a-number; it is rounded to the nearest double.
-/

namespace EntityDump.Numeric

open EntityDump.Text

/-- The number that a run of ASCII digits denotes. -/
def digitsValue (digits : List Char) : Nat :=
  digits.foldl (fun n c => n * 10 + digitValue c) 0

/-- The text is a nonempty run of ASCII digits. -/
def isDigitRun (s : List Char) : Bool :=
  !s.isEmpty && s.all isAsciiDigit

/-- Reads a natural number with an optional plus sign. -/
def readNat? (s : List Char) : Option Nat :=
  let digits := match s with
    | '+' :: rest => rest
    | _ => s
  if isDigitRun digits then some (digitsValue digits) else none

/-- Reads a natural number below `2^64`. -/
def readWord? (s : List Char) : Option Nat :=
  (readNat? s).filter (· < Nat.pow 2 64)

/-- Reads a whole number with an optional sign. -/
def readInt? (s : List Char) : Option Int :=
  match s with
  | '-' :: rest => if isDigitRun rest then some (-(digitsValue rest : Int)) else none
  | _ => (readNat? s).map Int.ofNat

/-- Reads a whole number from `-2^63` up to but not including `2^63`. -/
def readInt64? (s : List Char) : Option Int :=
  (readInt? s).filter fun n => -(Nat.pow 2 63 : Int) ≤ n && n < (Nat.pow 2 63 : Int)

/-- The double nearest to `mantissa * 10^exponent`. Exponents far outside the range of doubles are decided
without computing the power. -/
def nearestFloat (mantissa : Nat) (exponent : Int) : Float :=
  let leading := exponent + ((Nat.toDigits 10 mantissa).length : Int)
  if mantissa = 0 then 0.0
  else if leading > 400 then 1.0 / 0.0
  else if leading < -400 then 0.0
  else if 0 ≤ exponent then Float.ofScientific mantissa false exponent.toNat
  else Float.ofScientific mantissa true (-exponent).toNat

/-- Reads the exponent of a decimal fraction, which may be missing. -/
def readExponent? (s : List Char) : Option Int :=
  match s with
  | [] => some 0
  | 'e' :: rest => readInt? rest
  | 'E' :: rest => readInt? rest
  | _ => none

/-- Reads the magnitude of a decimal fraction. -/
def readMagnitude? (s : List Char) : Option Float :=
  let whole := s.takeWhile isAsciiDigit
  let rest := s.dropWhile isAsciiDigit
  let (fraction, rest) := match rest with
    | '.' :: rest => (rest.takeWhile isAsciiDigit, rest.dropWhile isAsciiDigit)
    | _ => ([], rest)
  if whole.isEmpty && fraction.isEmpty then none
  else
    (readExponent? rest).map fun (e : Int) =>
      nearestFloat (digitsValue (whole ++ fraction)) (e - (fraction.length : Int))

/-- Reads one of the words for infinity and not-a-number, in any case of letters. -/
def readWordFloat? (s : List Char) : Option Float :=
  let word := String.ofList (s.map lowerAscii)
  if word = "inf" || word = "infinity" then some (1.0 / 0.0)
  else if word = "nan" then some (0.0 / 0.0)
  else none

/-- Reads a decimal fraction. -/
def readFloat? (s : List Char) : Option Float :=
  let (negative, rest) := match s with
    | '-' :: rest => (true, rest)
    | '+' :: rest => (false, rest)
    | _ => (false, s)
  ((readMagnitude? rest).orElse fun _ => readWordFloat? rest).map fun x =>
    if negative then -x else x

end EntityDump.Numeric
