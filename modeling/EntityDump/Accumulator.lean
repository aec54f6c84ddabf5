import EntityDump.Json.Basic
import EntityDump.Text.Blank
import EntityDump.Text.DecimalDigit
import EntityDump.Error
/-!
# Running numeric aggregates

An accumulator holds the count, sum, least and greatest of the numbers it has taken, and how often a
condition was met. Two accumulators merge into the accumulator of both. It works over any numbers with an
order and an addition; `update` takes doubles and leaves out those that are not finite.
-/

namespace EntityDump

/-- Running aggregates of some numbers. -/
structure Accumulator (α : Type) where
  count : Nat
  sum : α
  /-- The least number taken; of no meaning before the first. -/
  least : α
  /-- The greatest number taken; of no meaning before the first. -/
  greatest : α
  /-- How often the condition was met. -/
  conditionCount : Nat
  deriving Repr

namespace Accumulator

variable {α : Type} [Zero α] [Add α] [LT α] [DecidableLT α]

/-- The lesser of two numbers, the first of equal ones. -/
def lesser (a b : α) : α :=
  if b < a then b else a

/-- The greater of two numbers, the first of equal ones. -/
def greater (a b : α) : α :=
  if a < b then b else a

/-- Nothing taken. -/
def empty : Accumulator α :=
  ⟨0, 0, 0, 0, 0⟩

/-- Nothing has been counted. -/
def isEmpty (a : Accumulator α) : Bool :=
  a.count == 0

/-- Takes a number. -/
def add (a : Accumulator α) (x : α) : Accumulator α :=
  { a with
    count := a.count + 1
    sum := a.sum + x
    least := if a.count = 0 then x else lesser a.least x
    greatest := if a.count = 0 then x else greater a.greatest x }

/-- Notes that the condition was met. -/
def recordCondition (a : Accumulator α) : Accumulator α :=
  { a with conditionCount := a.conditionCount + 1 }

/-- Takes all that another accumulator has taken. -/
def merge (a b : Accumulator α) : Accumulator α where
  count := a.count + b.count
  sum := a.sum + b.sum
  least :=
    if b.count = 0 then a.least else if a.count = 0 then b.least else lesser a.least b.least
  greatest :=
    if b.count = 0 then a.greatest
    else if a.count = 0 then b.greatest
    else greater a.greatest b.greatest
  conditionCount := a.conditionCount + b.conditionCount

/-- The least number, zero if there is none. -/
def min (a : Accumulator α) : α :=
  if a.count = 0 then 0 else a.least

/-- The greatest number, zero if there is none. -/
def max (a : Accumulator α) : α :=
  if a.count = 0 then 0 else a.greatest

/-- The mean, zero if there is none; `ofNat` makes a count a number. -/
def mean [Div α] (ofNat : Nat → α) (a : Accumulator α) : α :=
  if a.count = 0 then 0 else a.sum / ofNat a.count

/-! ### Doubles -/

/-- The mean of doubles. -/
def avg (a : Accumulator Float) : Float :=
  a.mean Float.ofNat

/-- Takes a double if it is finite. -/
def update (a : Accumulator Float) (x : Float) : Accumulator Float :=
  if Numeric.isFinite x then a.add x else a

/-- The finite double that a value is taken as; only numbers are taken. -/
def numberOf? (value : Json) : Option Float :=
  (value.number?.map Json.Number.toFloat).filter Numeric.isFinite

/-- Takes a value if it is a finite number. -/
def updateValue (a : Accumulator Float) (value : Json) : Accumulator Float :=
  match numberOf? value with
  | some x => a.add x
  | none => a

/-- Takes every value that is a finite number. -/
def updateValues (a : Accumulator Float) (values : List Json) : Accumulator Float :=
  values.foldl updateValue a

end Accumulator

/-! ### Functions by name -/

/-- One of the aggregates. -/
inductive AggregateFunction where
  | count
  | sum
  | avg
  | min
  | max
  | countIf
  deriving DecidableEq, Repr

namespace AggregateFunction

/-- All functions, in the order in which they are shown. -/
def all : List AggregateFunction := [count, sum, avg, min, max, countIf]

/-- The name of a function. -/
def name : AggregateFunction → String
  | count => "count"
  | sum => "sum"
  | avg => "avg"
  | min => "min"
  | max => "max"
  | countIf => "countIf"

/-- The function of a name, in any case of letters and with blanks around it. -/
def parse (text : String) : Except Error AggregateFunction :=
  match all.find? fun f => Text.equalIgnoringCase f.name (Text.trimmed text) with
  | some f => .ok f
  | none => .error (.invalidArgument (.unknownFunction text))

end AggregateFunction

end EntityDump
