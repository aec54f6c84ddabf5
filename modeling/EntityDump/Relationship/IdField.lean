import EntityDump.Json.Printer
import EntityDump.Path.Basic
import EntityDump.Pattern
import Std.Data.TreeSet
/-!
# Identifying fields

Which values inside an element identify something: texts and numbers under a key that names an id, and texts
that have the shape of an entity id wherever they stand. `findings` lists them with the paths at which they
stand; an `IdField` gathers the values found at one path.
-/

namespace EntityDump

/-- The key names an id: it ends with `Id` or `Ids`, or is `id` in any case of letters. -/
def isIdKey (key : String) : Bool :=
  let s := key.toList
  (Text.dropEnd? ['I', 'd'] s).isSome || (Text.dropEnd? ['I', 'd', 's'] s).isSome ||
    Text.equalIgnoringCase key "id"

/-! ### Finding identifying values -/

/-- An identifying value and the path at which it stands. -/
structure Finding where
  segments : List Segment
  value : String
  deriving DecidableEq, Repr

namespace Finding

/-- The text of a scalar that identifies something; `key` is the nearest key around it. -/
def identifying? (key : Option String) : Json → Option String
  | .string s => if key.any isIdKey || isEntityId s then some s else none
  | .number n => if key.any isIdKey then some n.text else none
  | _ => none

/-- What a scalar adds to the findings; a scalar at no path adds nothing. -/
def ofScalar (path : List Segment) (key : Option String) (value : Json) : List Finding :=
  match path, identifying? key value with
  | _ :: _, some text => [⟨path.reverse, text⟩]
  | _, _ => []

mutual

/-- The findings in a value that stands at a path, whose last segment comes first here. -/
def inValue (path : List Segment) (key : Option String) : Json → List Finding
  | .object fields => inFields path fields
  | .array items => inItems (.wildcard :: path) key items
  | value => ofScalar path key value

/-- The findings in the items of an array. -/
def inItems (path : List Segment) (key : Option String) : List Json → List Finding
  | [] => []
  | item :: rest => inValue path key item ++ inItems path key rest

/-- The findings in the fields of an object. -/
def inFields (path : List Segment) : List (String × Json) → List Finding
  | [] => []
  | (name, value) :: rest => inValue (.key name :: path) (some name) value ++ inFields path rest

end

end Finding

/-- The identifying values of an element, in order of the document. -/
def Json.findings (element : Json) : List Finding :=
  Finding.inValue [] none element

/-! ### The values at one path -/

/-- The identifying values found at one path. -/
structure IdField where
  path : String
  /-- The path leads through an array. -/
  wildcard : Bool
  /-- The distinct values. -/
  values : Std.TreeSet String := {}
  /-- How many values there are, repeated ones included. -/
  occurrences : Nat := 0
  /-- The pattern that all values have. -/
  pattern : Option Pattern := none

namespace IdField

/-- Takes another value. The pattern stays only if the value has it too. -/
def record (field : IdField) (value : String) : IdField :=
  let detected := Pattern.detect? value
  { field with
    values := field.values.insert value
    occurrences := field.occurrences + 1
    pattern :=
      if field.occurrences = 0 then detected
      else if field.pattern = detected then detected
      else none }

/-- The number of distinct values. -/
def distinctValues (field : IdField) : Nat :=
  field.values.size

/-- The first few of the distinct values, in ascending order. -/
def examples (field : IdField) (limit : Nat) : List String :=
  field.values.toList.take limit

/-- How many distinct values the other field has too. -/
def sharedValues (field other : IdField) : Nat :=
  field.values.toList.countP fun value => other.values.contains value

end IdField

/-- What is reported of an id field. -/
structure IdFieldSummary where
  path : String
  distinctValues : Nat
  occurrences : Nat
  pattern : Option Pattern
  examples : List String
  deriving DecidableEq, Repr

/-- What is reported of a field, with a limited number of examples. -/
def IdField.summary (field : IdField) (maxExamples : Nat) : IdFieldSummary :=
  ⟨field.path, field.distinctValues, field.occurrences, field.pattern, field.examples maxExamples⟩

end EntityDump
