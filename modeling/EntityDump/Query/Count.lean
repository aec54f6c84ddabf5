import EntityDump.Engine
/-!
# Counting

How many elements there are and how many pass a filter.
-/

namespace EntityDump

/-- The answer to a count. -/
structure CountResult where
  /-- The elements that pass. -/
  total : Nat := 0
  /-- All elements. -/
  scanned : Nat := 0
  /-- Some filter text was left out. -/
  filterIgnored : Bool := false
  deriving DecidableEq, Repr

namespace CountResult

/-- Takes one element. -/
def step (filter : FilterSet) (r : CountResult) (element : Json) : CountResult :=
  { r with
    total := if filter.accepts element then r.total + 1 else r.total
    scanned := r.scanned + 1 }

end CountResult

/-- Counts the elements that pass a filter. -/
def Engine.count (engine : Engine) (source : Source) (expression : Option String) :
    Except Error CountResult := do
  let filter ← engine.filter expression
  engine.scan source (CountResult.step filter) { filterIgnored := filter.filterIgnored }

end EntityDump
