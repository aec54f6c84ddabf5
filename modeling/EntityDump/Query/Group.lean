import EntityDump.Engine
import EntityDump.Json.Printer
import Std.Data.TreeMap
/-!
# Grouping

How often each value occurs at a path. A value counts under its text: a string under itself, every other
value under its JSON text; an element where the path selects nothing counts as `undefined`. Groups are
listed by descending count, equal counts by ascending key.
-/

namespace EntityDump

/-- The key of elements where a path selects nothing. -/
def missingKey : String := "undefined"

/-- The key of null. -/
def nullKey : String := "null"

/-- The text under which a value is grouped. -/
def groupKey : Json → String
  | .null => nullKey
  | .string s => s
  | value => value.compact

/-- The keys under which an element is grouped. -/
def groupKeys (path : Path) (element : Json) : List String :=
  match path.select element with
  | [] => [missingKey]
  | selected => selected.map groupKey

/-! ### Tallies -/

/-- How often each key was counted. -/
abbrev Tally := Std.TreeMap String Nat

namespace Tally

/-- Counts a key once more. -/
def bump (t : Tally) (key : String) : Tally :=
  t.alter key fun count => some (count.getD 0 + 1)

/-- Counts every key of a list. -/
def bumpAll (t : Tally) (keys : List String) : Tally :=
  keys.foldl bump t

/-- A key with its count ranks no lower than another one. -/
def ranksNoLower (a b : String × Nat) : Bool :=
  b.2 < a.2 || (a.2 == b.2 && a.1 ≤ b.1)

/-- Keys with their counts, by descending count and then ascending key. -/
def rank (entries : List (String × Nat)) : List (String × Nat) :=
  entries.mergeSort ranksNoLower

/-- The keys with their counts in order of their rank. -/
def ranked (t : Tally) : List (String × Nat) :=
  rank t.toList

end Tally

/-! ### The answer -/

/-- The answer to a grouping. -/
structure GroupResult where
  /-- The keys with their counts. -/
  groups : List (String × Nat)
  /-- The elements that pass. -/
  total : Nat
  /-- All elements. -/
  scanned : Nat
  /-- Some filter text was left out. -/
  filterIgnored : Bool
  deriving DecidableEq, Repr

/-- The number of distinct keys. -/
def GroupResult.uniqueValues (r : GroupResult) : Nat :=
  r.groups.length

/-- Elements counted so far. -/
structure GroupCounts where
  tally : Tally := {}
  total : Nat := 0
  scanned : Nat := 0

/-- Takes one element. -/
def GroupCounts.step (path : Path) (filter : FilterSet) (c : GroupCounts) (element : Json) :
    GroupCounts :=
  if filter.accepts element then
    ⟨c.tally.bumpAll (groupKeys path element), c.total + 1, c.scanned + 1⟩
  else { c with scanned := c.scanned + 1 }

/-- Counts the elements that pass a filter under each value of a path. -/
def Engine.groupBy (engine : Engine) (source : Source) (path : String) (expression : Option String) :
    Except Error GroupResult := do
  let path ← Path.parse path
  let filter ← engine.filter expression
  let counts ← engine.scan source (GroupCounts.step path filter) {}
  return ⟨counts.tally.ranked, counts.total, counts.scanned, filter.filterIgnored⟩

end EntityDump
