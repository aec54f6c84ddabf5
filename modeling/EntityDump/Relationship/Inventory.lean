import EntityDump.Relationship.IdField
import Std.Data.TreeMap
/-!
# Inventories of id fields

All identifying values of many elements, gathered by the text of the path at which they stand. Whether a
path leads through an array is told by the first value found under its text.
-/

namespace EntityDump

/-- The id fields of some elements. -/
structure Inventory where
  /-- The fields by the texts of their paths. -/
  byPath : Std.TreeMap String IdField := {}
  /-- The elements taken. -/
  scanned : Nat := 0

namespace Inventory

/-- Takes one identifying value. -/
def record (byPath : Std.TreeMap String IdField) (finding : Finding) : Std.TreeMap String IdField :=
  let path := Path.ofSegments finding.segments
  byPath.alter path.text fun field =>
    some ((field.getD { path := path.text, wildcard := path.hasWildcard }).record finding.value)

/-- Takes the identifying values of an element. -/
def observe (inventory : Inventory) (element : Json) : Inventory :=
  ⟨element.findings.foldl record inventory.byPath, inventory.scanned + 1⟩

/-- The inventory of some elements. -/
def ofElements (elements : List Json) : Inventory :=
  elements.foldl observe {}

/-- The field at a path. -/
def get? (inventory : Inventory) (path : String) : Option IdField :=
  inventory.byPath[path]?

/-- The number of fields. -/
def size (inventory : Inventory) : Nat :=
  inventory.byPath.size

/-- There is no field. -/
def isEmpty (inventory : Inventory) : Bool :=
  inventory.byPath.isEmpty

/-- The fields in ascending order of their paths. -/
def fields (inventory : Inventory) : List IdField :=
  inventory.byPath.values

/-- What is reported of the fields, in ascending order of their paths. -/
def summaries (inventory : Inventory) (maxExamples : Nat) : List IdFieldSummary :=
  inventory.fields.map fun field => field.summary maxExamples

end Inventory

end EntityDump
