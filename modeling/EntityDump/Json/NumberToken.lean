import EntityDump.Json.Number
import EntityDump.Numeric.Literal
/-!
# Decoding number tokens

The grammar of JSON numbers and the value of a number token. A token without fraction and exponent that
fits 64 bits is a whole number. Any other is a double computed from a significand of at most 64 bits:
digits that no longer fit are dropped, and the significand is scaled by one power of ten. The result can
differ from the nearest double in the last place.
-/

namespace EntityDump.Json

open EntityDump.Text EntityDump.Numeric

/-- The parts of a number token: a sign, whole digits, and maybe a fraction and an exponent. -/
structure NumberToken where
  negative : Bool
  whole : List Char
  fraction : Option (List Char)
  /-- The exponent's sign is a minus, and its digits. -/
  exponent : Option (Bool × List Char)

namespace NumberToken

/-- Reads the exponent part, which may be missing and must end the token. -/
def readExponent? (s : List Char) : Option (Option (Bool × List Char)) :=
  let signed (rest : List Char) : Option (Option (Bool × List Char)) :=
    let (negative, digits) := match rest with
      | '-' :: digits => (true, digits)
      | '+' :: digits => (false, digits)
      | _ => (false, rest)
    if isDigitRun digits then some (some (negative, digits)) else none
  match s with
  | [] => some none
  | 'e' :: rest => signed rest
  | 'E' :: rest => signed rest
  | _ => none

/-- Reads a token behind its sign: no leading zeros, a digit on either side of the point. -/
def readUnsigned? (negative : Bool) (s : List Char) : Option NumberToken :=
  let whole := s.takeWhile isAsciiDigit
  let rest := s.dropWhile isAsciiDigit
  if whole.isEmpty || (whole.head? == some '0' && whole.length > 1) then none
  else
    match rest with
    | '.' :: rest =>
      let fraction := rest.takeWhile isAsciiDigit
      if fraction.isEmpty then none
      else
        (readExponent? (rest.dropWhile isAsciiDigit)).map fun exponent =>
          ⟨negative, whole, some fraction, exponent⟩
    | _ => (readExponent? rest).map fun exponent => ⟨negative, whole, none, exponent⟩

/-- Reads a whole token. -/
def read? (s : List Char) : Option NumberToken :=
  match s with
  | '-' :: rest => readUnsigned? true rest
  | _ => readUnsigned? false s

/-- One past the greatest significand. -/
def significandLimit : Nat := Nat.pow 2 64

/-- The significand of a run of whole digits and how many of the last digits were dropped: the first digit
that does not fit and all after it. -/
def takeWhole : List Char → Nat → Nat × Nat
  | [], n => (n, 0)
  | c :: cs, n =>
    let next := n * 10 + digitValue c
    if next < significandLimit then takeWhole cs next else (n, (c :: cs).length)

/-- Continues a significand with fraction digits while they fit; gives it with the number of digits kept. -/
def takeFraction : List Char → Nat → Nat × Nat
  | [], n => (n, 0)
  | c :: cs, n =>
    let next := n * 10 + digitValue c
    if next < significandLimit then
      let (m, kept) := takeFraction cs next
      (m, kept + 1)
    else (n, 0)

/-- The double `10^k`. -/
def powerOfTen (k : Nat) : Float :=
  Float.ofScientific 1 false k

/-- Scales by a power of ten, in steps where the power is too great for a double. Nothing is given when
the result is infinite. -/
def scale (x : Float) (e : Int) : Option Float :=
  if h : e.natAbs ≤ 308 then
    if 0 ≤ e then
      let y := x * powerOfTen e.natAbs
      if isFinite y then some y else none
    else some (x / powerOfTen e.natAbs)
  else if x == 0.0 then some x
  else if 0 ≤ e then none
  else scale (x / powerOfTen 308) (e + 308)
termination_by e.natAbs
decreasing_by omega

/-- The exponent that the token writes, or nothing if its digits pass `2^31`; the leading digits decide. -/
def writtenExponent? (token : NumberToken) : Option Int :=
  match token.exponent with
  | none => some 0
  | some (negative, digits) =>
    let n := digitsValue digits
    if n < Nat.pow 2 31 then some (if negative then -(n : Int) else n) else none

/-- The magnitude of a token as a double. An exponent beyond `2^31` gives zero if it is negative or the
significand is zero, and no number otherwise. -/
def magnitude? (token : NumberToken) : Option Float :=
  let (significand, dropped) := takeWhole token.whole 0
  let (significand, kept) := takeFraction (token.fraction.getD []) significand
  match token.writtenExponent? with
  | some e => scale (Float.ofNat significand) (e + (dropped : Int) - (kept : Int))
  | none =>
    let negativeExponent := (token.exponent.map (·.1)).getD false
    if significand = 0 || negativeExponent then some 0.0 else none

/-- The whole number that the token denotes, if it has neither fraction nor exponent and fits. Minus zero
is not a whole number. -/
def wholeNumber? (token : NumberToken) : Option Int :=
  match token.fraction, token.exponent with
  | none, none =>
    let n := digitsValue token.whole
    if token.negative then
      if 0 < n && n ≤ Nat.pow 2 63 then some (-(n : Int)) else none
    else if n < significandLimit then some n
    else none
  | _, _ => none

/-- The number that the token denotes; nothing when it is too great for a double. -/
def value? (token : NumberToken) : Option Number :=
  match token.wholeNumber? with
  | some n => some (.int n)
  | none => token.magnitude?.map fun x => .float (if token.negative then -x else x)

end NumberToken

/-- Decodes the text of a number token. -/
def Number.decode? (s : List Char) : Option Number :=
  (NumberToken.read? s).bind NumberToken.value?

end EntityDump.Json
