import EntityDump.Text.Blank
import EntityDump.Text.Search
/-!
# Sources

Where elements come from: a file of a directory, and the array in its document, named by a sub-path of
object keys. Two sources are the same if their files and the texts of their sub-paths are.
-/

namespace EntityDump

/-! ### Files -/

/-- The files there are, by name. -/
structure Directory where
  files : List (String × List UInt8)

namespace Location

/-- The parts of a location between slashes. Empty parts and dots count for nothing, but for a dot at the
beginning; a slash at the beginning is a part of its own. -/
def parts (location : String) : List String :=
  let raw := (Text.splitAt (· == '/') location.toList).map String.ofList
  let keep (part : String) : Bool := part != "" && part != "."
  match raw with
  | "" :: rest => if rest.isEmpty then [] else "/" :: rest.filter keep
  | "." :: rest => "." :: rest.filter keep
  | _ => raw.filter keep

/-- The parts of a location without a dot at the beginning, which is where one is already. -/
def place (location : String) : List String :=
  match parts location with
  | "." :: rest => rest
  | parts => parts

/-- Both texts name the same location. A dot at the beginning tells locations apart, though they lead to the
same place. -/
def same (a b : String) : Bool :=
  parts a == parts b

end Location

/-- The bytes of a file. -/
def Directory.open? (d : Directory) (location : String) : Option (List UInt8) :=
  (d.files.find? fun file => Location.place file.1 == Location.place location).map (·.2)

/-! ### Sub-paths -/

/-- The sub-path of sources that name none. -/
def defaultSubPath : String := "entities"

/-- An array in the document of a file. -/
structure Source where
  /-- The location of the file. -/
  path : String
  /-- Dotted keys from the root to the array; empty for the root itself. -/
  subPath : String := defaultSubPath
  deriving DecidableEq, Repr

namespace Source

/-- The root array of a file. -/
def rootArray (path : String) : Source := ⟨path, ""⟩

/-- The keys of a sub-path. A dollar sign at its beginning stands for the root; empty keys are left out. -/
def subPathKeys (s : Source) : List String :=
  let trimmed := Text.trim s.subPath.toList
  let rest := match trimmed with
    | '$' :: '.' :: rest => rest
    | '$' :: rest => rest
    | _ => trimmed
  ((Text.splitAt (· == '.') rest).filter fun key => !key.isEmpty).map String.ofList

/-- Both are the same array of the same file. -/
def same (a b : Source) : Bool :=
  Location.same a.path b.path && a.subPath == b.subPath

end Source

end EntityDump
