import EntityDump.Numeric.Layout
/-!
# Amounts in reports

How numbers and shares are written for reading: whole numbers without places while they are not too great,
other numbers with two, shares with one.
-/

namespace EntityDump.Report

open Numeric

/-- One past the greatest whole number that is written without places. -/
def wholeLimit : Nat := Nat.pow 10 15

/-- A number for reading. -/
def amount (x : Float) : String :=
  match Dyadic.ofFloat? x with
  | some d =>
    if d.isWhole && d.truncate.natAbs < wholeLimit then fixedText 0 x else fixedText 2 x
  | none => nonFiniteText x

/-- A percentage for reading. -/
def percentage (x : Float) : String :=
  fixedText 1 x ++ "%"

/-- The share of a part for reading; of nothing it is zero. -/
def share (part whole : Nat) : String :=
  if whole = 0 then "0.0%" else percentage (Float.ofNat part / Float.ofNat whole * 100.0)

/-- The most marks of a bar. -/
def barWidth : Nat := 30

/-- A bar for a part of the greatest part. -/
def bar (part peak : Nat) : String :=
  if peak = 0 then ""
  else
    let length := Float.ofNat part / Float.ofNat peak * Float.ofNat barWidth
    String.ofList (List.replicate ((Dyadic.ofFloat? length).elim 0 Dyadic.roundMagnitude) '#')

end EntityDump.Report
