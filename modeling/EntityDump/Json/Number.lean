import EntityDump.Numeric.Layout
/-!
# JSON numbers

A JSON number is kept as a whole number while it fits 64 bits, signed or unsigned, and as a double
otherwise. The two kinds are told apart by `same` and compared by value through `toFloat`.
-/

namespace EntityDump.Json

open EntityDump.Numeric

/-- A decoded JSON number. -/
inductive Number where
  /-- A whole number from `-2^63` up to but not including `2^64`. -/
  | int (n : Int)
  /-- A finite double. -/
  | float (x : Float)

namespace Number

/-- The nearest double. -/
def toFloat : Number → Float
  | int n => Float.ofInt n
  | float x => x

/-- The number was decoded as a whole number. -/
def isInt : Number → Bool
  | int _ => true
  | float _ => false

/-- Same kind and same value. -/
def same : Number → Number → Bool
  | int a, int b => a == b
  | float a, float b => a == b
  | _, _ => false

/-- The number as JSON text. -/
def text : Number → String
  | int n => toString n
  | float x => floatText jsonLayout x

end Number

end EntityDump.Json
