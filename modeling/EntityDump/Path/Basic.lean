import EntityDump.Json.Basic
import EntityDump.Text.Search
/-!
# Path expressions

A path is a list of segments: a key of an object, an index into an array, or a wildcard for every item or
field. A path keeps the text it was written as; a path made from segments is written by `render`.
-/

namespace EntityDump

/-- One step of a path. -/
inductive Segment where
  /-- A field of an object. -/
  | key (name : String)
  /-- Every item of an array, every field of an object. -/
  | wildcard
  /-- One item of an array, counted from zero. -/
  | index (n : Nat)
  deriving DecidableEq, Repr

/-- A path with its text. -/
structure Path where
  text : String
  segments : List Segment
  deriving DecidableEq, Repr

namespace Path

/-- The character has a meaning of its own in a path. -/
def isSpecial (c : Char) : Bool :=
  c == '.' || c == '[' || c == ']'

/-- The text of a segment behind a text that has or has not begun. -/
def renderSegment (begun : Bool) : Segment → List Char
  | .key name =>
    if name.toList.any isSpecial then ['[', '\''] ++ name.toList ++ ['\'', ']']
    else if begun then '.' :: name.toList
    else name.toList
  | .wildcard => ['[', '*', ']']
  | .index n => '[' :: Nat.toDigits 10 n ++ [']']

/-- The text of segments: plain keys behind dots, other keys in brackets and quotes. -/
def render (segments : List Segment) : List Char :=
  segments.foldl (fun out segment => out ++ renderSegment (!out.isEmpty) segment) []

/-- The path of some segments. -/
def ofSegments (segments : List Segment) : Path :=
  ⟨String.ofList (render segments), segments⟩

/-- The path selects the whole value. -/
def isIdentity (p : Path) : Bool :=
  p.segments.isEmpty

/-- The path may select several values. -/
def hasWildcard (p : Path) : Bool :=
  p.segments.contains .wildcard

end Path

end EntityDump
