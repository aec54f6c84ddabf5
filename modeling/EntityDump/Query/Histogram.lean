import EntityDump.Query.Stats
/-!
# Histograms

The finite numbers at a path, counted in buckets of equal width between the least and the greatest. A first
pass finds the range, a second fills the buckets. Whatever the computation of a slot gives, a number goes
into one of the buckets: `slot_lt`.
-/

namespace EntityDump

/-- One bucket of a histogram. -/
structure Bucket where
  index : Nat
  start : Float
  stop : Float
  count : Nat
  /-- Its share of all numbers, in percent. -/
  percentage : Float

/-- The answer to a question for a histogram. -/
structure HistogramResult where
  buckets : List Bucket
  /-- The numbers counted. -/
  total : Nat
  min : Float
  max : Float
  /-- All elements. -/
  scanned : Nat
  /-- Some filter text was left out. -/
  filterIgnored : Bool

/-- A range cut into slots of equal width. -/
structure Slots where
  start : Float
  width : Float
  /-- The number of slots. -/
  size : Nat

namespace Slots

/-- The slots of a range; if all numbers are equal the width is one. -/
def ofRange (min max : Float) (size : Nat) : Slots :=
  ⟨min, if max > min then (max - min) / Float.ofNat size else 1.0, size⟩

/-- The slot of a number. What lies below the range, or has no place, goes into the first slot; what lies
above goes into the last. -/
def slot (s : Slots) (x : Float) : Nat :=
  let place := (x - s.start) / s.width
  match Numeric.Dyadic.ofFloat? place with
  | some d => Nat.min d.truncate.toNat (s.size - 1)
  | none => if place > 0 then s.size - 1 else 0

/-- A number goes into one of the slots. -/
theorem slot_lt (s : Slots) (x : Float) (h : 0 < s.size) : s.slot x < s.size := by
  unfold slot
  dsimp only
  split
  · exact Nat.lt_of_le_of_lt (Nat.min_le_right _ _) (by omega)
  · split <;> omega

/-- Where a slot begins. -/
def startOf (s : Slots) (index : Nat) : Float :=
  s.start + Float.ofNat index * s.width

/-- Counts a number in its slot. -/
def bump (s : Slots) (counts : List Nat) (x : Float) : List Nat :=
  counts.modify (s.slot x) (· + 1)

/-- The bucket of a slot, of the given number of numbers in all. -/
def bucket (s : Slots) (total index count : Nat) : Bucket where
  index := index
  start := s.startOf index
  stop := s.startOf index + s.width
  count := count
  percentage := Float.ofNat count / Float.ofNat total * 100.0

end Slots

/-- Counts the numbers at a path of one element. -/
def Slots.step (s : Slots) (path : Path) (filter : FilterSet) (counts : List Nat) (element : Json) :
    List Nat :=
  if filter.accepts element then
    ((path.select element).filterMap Accumulator.numberOf?).foldl s.bump counts
  else counts

/-- A histogram of the numbers at a path. -/
def Engine.distribution (engine : Engine) (source : Source) (path : String)
    (expression : Option String) (buckets : Option Nat) : Except Error HistogramResult := do
  let size := buckets.getD engine.config.query.distributionBuckets
  if size = 0 then throw (.invalidArgument .noBuckets)
  let path ← Path.parse path
  let filter ← engine.filter expression
  let numbers ← engine.pathNumbers source path filter
  let range := numbers.accumulator
  if range.isEmpty then
    return ⟨[], range.count, range.min, range.max, numbers.scanned, filter.filterIgnored⟩
  let slots := Slots.ofRange range.min range.max size
  let counts ← engine.scan source (slots.step path filter) (List.replicate size 0)
  let buckets := counts.mapIdx fun index count => slots.bucket range.count index count
  return ⟨buckets, range.count, range.min, range.max, numbers.scanned, filter.filterIgnored⟩

end EntityDump
