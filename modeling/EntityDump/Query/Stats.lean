import EntityDump.Accumulator
import EntityDump.Engine
/-!
# Statistics of a path

Count, sum, mean and range of the finite numbers that a path selects.
-/

namespace EntityDump

/-- The answer to a question for statistics. -/
structure StatsResult where
  count : Nat
  sum : Float
  avg : Float
  min : Float
  max : Float
  /-- All elements. -/
  scanned : Nat
  /-- Some filter text was left out. -/
  filterIgnored : Bool

/-- The numbers at a path so far. -/
structure PathNumbers where
  accumulator : Accumulator Float := .empty
  scanned : Nat := 0

/-- Takes one element. -/
def PathNumbers.step (path : Path) (filter : FilterSet) (n : PathNumbers) (element : Json) :
    PathNumbers :=
  if filter.accepts element then
    ⟨n.accumulator.updateValues (path.select element), n.scanned + 1⟩
  else { n with scanned := n.scanned + 1 }

/-- Takes the numbers at a path of the elements that pass a filter. -/
def Engine.pathNumbers (engine : Engine) (source : Source) (path : Path) (filter : FilterSet) :
    Except Error PathNumbers :=
  engine.scan source (PathNumbers.step path filter) {}

/-- Statistics of the numbers at a path. -/
def Engine.stats (engine : Engine) (source : Source) (path : String) (expression : Option String) :
    Except Error StatsResult := do
  let path ← Path.parse path
  let filter ← engine.filter expression
  let numbers ← engine.pathNumbers source path filter
  let a := numbers.accumulator
  return ⟨a.count, a.sum, a.avg, a.min, a.max, numbers.scanned, filter.filterIgnored⟩

end EntityDump
