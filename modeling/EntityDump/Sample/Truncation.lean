import EntityDump.Json.Basic
import EntityDump.Text.Quoted
/-!
# Truncating values for display

Long strings are clipped, and containers deeper than a limit are replaced by a text that says how many
entries they have.
-/

namespace EntityDump

/-- How much of a value is shown. -/
structure Truncation where
  /-- The most characters of a string; zero for no limit. -/
  maxChars : Nat := 200
  /-- The depth of the deepest containers shown. -/
  maxDepth : Nat := 4
  deriving DecidableEq, Repr

namespace Truncation

/-- A string of at most `maxChars` characters is kept; of a longer one these are, with dots behind. -/
def clip (maxChars : Nat) (s : String) : String :=
  if maxChars = 0 then s else String.ofList (Text.clip maxChars s.toList)

/-- What is shown for an object that lies too deep. -/
def objectSummary (size : Nat) : String :=
  "\x7b…" ++ toString size ++ " keys\x7d"

/-- What is shown for an array that lies too deep. -/
def arraySummary (size : Nat) : String :=
  "[…" ++ toString size ++ " items]"

mutual

/-- A value with `room` levels of containers shown. -/
def truncate (maxChars room : Nat) : Json → Json
  | .string s => .string (clip maxChars s)
  | .object fields =>
    match room with
    | 0 => .string (objectSummary fields.length)
    | room + 1 => .object (truncateFields maxChars room fields)
  | .array items =>
    match room with
    | 0 => .string (arraySummary items.length)
    | room + 1 => .array (truncateItems maxChars room items)
  | value => value

/-- The fields of a container, each truncated. -/
def truncateFields (maxChars room : Nat) : List (String × Json) → List (String × Json)
  | [] => []
  | (key, value) :: rest => (key, truncate maxChars room value) :: truncateFields maxChars room rest

/-- The items of a container, each truncated. -/
def truncateItems (maxChars room : Nat) : List Json → List Json
  | [] => []
  | item :: rest => truncate maxChars room item :: truncateItems maxChars room rest

end

/-- A value as it is shown. The value itself has depth zero. -/
def apply (t : Truncation) (value : Json) : Json :=
  truncate t.maxChars (t.maxDepth + 1) value

end Truncation

end EntityDump
