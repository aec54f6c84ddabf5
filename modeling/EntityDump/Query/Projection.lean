import EntityDump.Error
import EntityDump.Path.Parser
import EntityDump.Path.Selection
/-!
# Projections

A projection takes fields out of an element. A field is a path; with `.length` at its end it is the length
of the array or the string there. A field is named by its text.
-/

namespace EntityDump

open Text

/-- What makes a field a length. -/
def lengthSuffix : List Char := ['.', 'l', 'e', 'n', 'g', 't', 'h']

/-- One field of a projection. -/
structure Projection where
  name : String
  path : Path
  /-- The field is the length of what stands at the path. -/
  isLength : Bool

namespace Projection

/-- Reads a field. -/
def parse (field : String) : Except Error Projection := do
  let field := trim field.toList
  let (path, isLength) := match dropEnd? lengthSuffix field with
    | some base => (base, true)
    | none => (field, false)
  return ⟨String.ofList field, ← Path.parse (String.ofList path), isLength⟩

/-- The length of an array, or the number of characters of a string. -/
def lengthOf : Option Json → Json
  | some (.array items) => Json.ofNat items.length
  | some (.string s) => Json.ofNat s.length
  | _ => .null

/-- The field of an element: all values of a path with wildcards, else the first or null. -/
def resolve (p : Projection) (element : Json) : Json :=
  if p.isLength then lengthOf (p.path.first? element)
  else if p.path.hasWildcard then .array (p.path.select element)
  else (p.path.first? element).getD .null

/-- The object of several fields, each taken from the element that belongs to it. -/
def collect (fields : List (String × Json)) : Json :=
  .object (Json.Fields.ofList fields)

/-- The projection of an element to some fields; none means all of it. -/
def apply (fields : List Projection) (element : Json) : Json :=
  if fields.isEmpty then element
  else collect (fields.map fun p => (p.name, p.resolve element))

/-- Reads fields in order. -/
def parseAll (fields : List String) : Except Error (List Projection) :=
  fields.mapM parse

end Projection

/-- The projection of a value to fields given as text. -/
def project (value : Json) (fields : List String) : Except Error Json :=
  (Projection.parseAll fields).map fun projections => Projection.apply projections value

end EntityDump
