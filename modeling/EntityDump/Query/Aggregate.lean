import EntityDump.Accumulator
import EntityDump.Query.Group
/-!
# Aggregates per group

The numbers at one path, aggregated for each value of another. The numbers of an element are taken once and
go to every group the element belongs to. Groups are listed by descending number of elements, equal ones by
ascending key.
-/

namespace EntityDump

/-- What is aggregated, and by what. -/
structure AggregateOptions where
  /-- The path whose values name the groups. -/
  groupPath : String
  /-- The path of the numbers. -/
  valuePath : String
  filter : Option String := none
  /-- A condition that is counted in every group. -/
  countIf : Option String := none
  deriving DecidableEq, Repr

/-- The aggregates of one group. -/
structure AggregateGroup where
  key : String
  /-- How often the key occurs. -/
  elements : Nat
  count : Nat
  sum : Float
  avg : Float
  min : Float
  max : Float
  conditionCount : Nat

/-- The answer to a question for aggregates. -/
structure AggregateResult where
  groups : List AggregateGroup
  /-- The elements that pass. -/
  total : Nat
  /-- All elements. -/
  scanned : Nat
  /-- Some filter text was left out. -/
  filterIgnored : Bool

namespace AggregateGroup

/-- The aggregates of a group as they stand. -/
def ofAccumulator (key : String) (elements : Nat) (a : Accumulator Float) : AggregateGroup :=
  ⟨key, elements, a.count, a.sum, a.avg, a.min, a.max, a.conditionCount⟩

/-- One of the aggregates by its function. -/
def value (g : AggregateGroup) : AggregateFunction → Float
  | .count => Float.ofNat g.count
  | .sum => g.sum
  | .avg => g.avg
  | .min => g.min
  | .max => g.max
  | .countIf => Float.ofNat g.conditionCount

end AggregateGroup

/-- The groups so far: for each key how often it occurred, and its aggregates. -/
abbrev Groups := Std.TreeMap String (Nat × Accumulator Float)

namespace Groups

/-- Adds the aggregates of an element to a group. -/
def add (a : Accumulator Float) (groups : Groups) (key : String) : Groups :=
  groups.alter key fun group =>
    let (elements, accumulator) := group.getD (0, .empty)
    some (elements + 1, accumulator.merge a)

/-- The groups by descending number of elements and then ascending key. -/
def ranked (groups : Groups) : List AggregateGroup :=
  let listed := groups.toList.map fun entry =>
    AggregateGroup.ofAccumulator entry.1 entry.2.1 entry.2.2
  listed.mergeSort fun a b => b.elements < a.elements || (a.elements == b.elements && a.key ≤ b.key)

end Groups

/-- Elements aggregated so far. -/
structure AggregateState where
  groups : Groups := {}
  total : Nat := 0
  scanned : Nat := 0

/-- The aggregates of one element: its numbers, and whether it meets the condition, if there is one. -/
def elementAggregates (valuePath : Path) (countIf : FilterSet) (element : Json) :
    Accumulator Float :=
  let a := (Accumulator.empty (α := Float)).updateValues (valuePath.select element)
  if !countIf.isEmpty && countIf.accepts element then a.recordCondition else a

/-- Takes one element. -/
def AggregateState.step (groupPath valuePath : Path) (filter countIf : FilterSet)
    (s : AggregateState) (element : Json) : AggregateState :=
  if filter.accepts element then
    let a := elementAggregates valuePath countIf element
    ⟨(groupKeys groupPath element).foldl (Groups.add a) s.groups, s.total + 1, s.scanned + 1⟩
  else { s with scanned := s.scanned + 1 }

/-- Aggregates the numbers at a path for each value of another. -/
def Engine.aggregate (engine : Engine) (source : Source) (options : AggregateOptions) :
    Except Error AggregateResult := do
  let groupPath ← Path.parse options.groupPath
  let valuePath ← Path.parse options.valuePath
  let filter ← engine.filter options.filter
  let countIf ← engine.filter options.countIf
  let s ← engine.scan source (AggregateState.step groupPath valuePath filter countIf) {}
  return ⟨s.groups.ranked, s.total, s.scanned, filter.filterIgnored || countIf.filterIgnored⟩

end EntityDump
