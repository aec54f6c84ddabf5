import EntityDump.Filter.Calendar
import EntityDump.Json.Printer
import EntityDump.Text.Search
/-!
# Comparing values

Equality and order of JSON values as filters see them. Numbers are equal by value, everything else by shape
and scalars. Two values are ordered as numbers if both are numbers or texts of numbers, else as instants if
both are; otherwise they have no order.
-/

namespace EntityDump.Compare

open EntityDump.Text

/-- Equal as filters see it: numbers by value, other values alike in every part. -/
def equal : Json → Json → Bool
  | .number a, .number b => a.toFloat == b.toFloat
  | a, b => a.same b

/-- A finite number, or the number that a string spells. -/
def asNumber? (value : Json) : Option Float :=
  let number := match value with
    | .number n => some n.toFloat
    | .string s => Numeric.readFloat? (trim s.toList)
    | _ => none
  number.filter Numeric.isFinite

/-- Milliseconds of a number, less any fraction. -/
def millis? : Json.Number → Option Int
  | .int n => some n
  | .float x => (Numeric.Dyadic.ofFloat? x).map Numeric.Dyadic.truncate

/-- The instant that a number of milliseconds or a date names. -/
def asInstant? : Json → Option Int
  | .number n => (millis? n).bind Calendar.ofMillis?
  | .string s => Calendar.read? (trim s.toList)
  | _ => none

/-- The order of two doubles. -/
def floatOrder (a b : Float) : Ordering :=
  if a < b then .lt else if a > b then .gt else .eq

/-- The order of two values, if they have one. -/
def order? (a b : Json) : Option Ordering :=
  match asNumber? a, asNumber? b with
  | some x, some y => some (floatOrder x y)
  | _, _ =>
    match asInstant? a, asInstant? b with
    | some x, some y => some (compare x y)
    | _, _ => none

/-- The value contains the literal: a string the literal's text, an array an equal item. -/
def contains (value literal : Json) : Bool :=
  match value, literal with
  | .string s, .string needle => Text.contains needle.toList s.toList
  | .string s, .number n => Text.contains n.text.toList s.toList
  | .string s, .bool b => Text.contains (Json.boolText b).toList s.toList
  | .array items, _ => items.any fun item => equal item literal
  | _, _ => false

/-- A string that begins with the literal. -/
def startsWith : Json → Json → Bool
  | .string s, .string start => (dropStart? start.toList s.toList).isSome
  | _, _ => false

/-- A string that ends with the literal. -/
def endsWith : Json → Json → Bool
  | .string s, .string tail => (dropEnd? tail.toList s.toList).isSome
  | _, _ => false

end EntityDump.Compare
