import EntityDump.Json.Basic
import EntityDump.Numeric.Layout
import EntityDump.Shape.Basic
import EntityDump.Text.Quoted
/-!
# Outlines of shapes

A shape as an indented outline with a line for each place, and as a JSON value.
-/

namespace EntityDump.Shape

open Numeric

/-! ### One line -/

/-- The most characters of an example that are shown. -/
def exampleChars : Nat := 40

/-- An example between quotes. -/
def exampleText (example_ : String) : String :=
  String.ofList (Text.quotedText (Text.clip exampleChars example_.toList))

/-- A range of lengths. -/
def lengthRange (minLen maxLen : Nat) : String :=
  if minLen = maxLen then s!"[{minLen}]" else s!"[{minLen}..{maxLen}]"

/-- A range of numbers. -/
def numberRange (min max : Float) : String :=
  if min == max then "(" ++ floatText plainLayout min ++ ")"
  else "(" ++ floatText plainLayout min ++ " .. " ++ floatText plainLayout max ++ ")"

/-- What is known of strings. -/
def stringSummary (patterns : List Pattern) (examples : List String) : String :=
  let patternPart :=
    if patterns.isEmpty then "" else " <" ++ "|".intercalate (patterns.map Pattern.name) ++ ">"
  let examplePart :=
    if examples.isEmpty then "" else " e.g. " ++ ", ".intercalate (examples.map exampleText)
  "string" ++ patternPart ++ examplePart

mutual

/-- The shape without its children. -/
def describe : Shape → String
  | object fields truncated =>
    if truncated then "object \x7b…\x7d" else if fields.isEmpty then "object \x7b\x7d" else "object"
  | array minLen maxLen _ truncated =>
    "array " ++ lengthRange minLen maxLen ++ (if truncated then " […]" else "")
  | string patterns examples => stringSummary patterns examples
  | number min max integer => (if integer then "integer " else "number ") ++ numberRange min max
  | boolean => "boolean"
  | null => "null"
  | union variants => describeMembers variants

/-- Members between bars. -/
def describeMembers : List Shape → String
  | [] => ""
  | [v] => describe v
  | v :: rest => describe v ++ " | " ++ describeMembers rest

end

/-! ### The outline -/

/-- The beginning of a line at a depth. -/
def margin (depth : Nat) : String :=
  String.ofList (List.replicate (2 * depth) ' ')

mutual

/-- The lines below a shape. -/
def childLines (depth : Nat) : Shape → List String
  | object fields _ => fieldLines depth fields
  | array _ _ items _ => itemLines depth items
  | union variants => memberLines depth variants
  | _ => []

/-- A line for each field, and the lines below it. -/
def fieldLines (depth : Nat) : List (String × Bool × Shape) → List String
  | [] => []
  | (key, optional, node) :: rest =>
    (margin depth ++ key ++ (if optional then "?" else "") ++ ": " ++ describe node) ::
      childLines (depth + 1) node ++ fieldLines depth rest

/-- A line for the items, and the lines below it. -/
def itemLines (depth : Nat) : Option Shape → List String
  | none => []
  | some node => (margin depth ++ "- " ++ describe node) :: childLines (depth + 1) node

/-- A line for each member that has children, and the lines below it. -/
def memberLines (depth : Nat) : List Shape → List String
  | [] => []
  | v :: rest =>
    (if isContainer v then (margin depth ++ "| " ++ describe v) :: childLines (depth + 1) v else [])
      ++ memberLines depth rest

end

/-- The outline of a shape. -/
def outline (s : Shape) : String :=
  String.join ((s.describe :: childLines 1 s).map (· ++ "\n"))

/-! ### JSON -/

/-- A field that is left out when false. -/
def flag (name : String) (set : Bool) : List (String × Json) :=
  if set then [(name, .bool true)] else []

/-- A list that is left out when empty. -/
def strings (name : String) (items : List String) : List (String × Json) :=
  if items.isEmpty then [] else [(name, .array (items.map .string))]

mutual

/-- The shape as the fields of an object. -/
def jsonFields : Shape → List (String × Json)
  | object fields truncated =>
    [("type", .string "object"), ("fields", .object (jsonMembers fields))] ++
      flag "truncated" truncated
  | array minLen maxLen items truncated =>
    [("type", .string "array"), ("minLen", Json.ofNat minLen), ("maxLen", Json.ofNat maxLen)] ++
      jsonItems items ++ flag "truncated" truncated
  | string patterns examples =>
    [("type", .string "string")] ++ strings "patterns" (patterns.map Pattern.name) ++
      strings "examples" examples
  | number min max integer =>
    [("type", .string "number"), ("min", Json.ofFloat min), ("max", Json.ofFloat max),
      ("integer", .bool integer)]
  | boolean => [("type", .string "boolean")]
  | null => [("type", .string "null")]
  | union variants => [("type", .string "union"), ("variants", .array (jsonVariants variants))]

/-- The fields of an object shape. -/
def jsonMembers : List (String × Bool × Shape) → List (String × Json)
  | [] => []
  | (key, optional, node) :: rest =>
    (key, .object (jsonFields node ++ flag "optional" optional)) :: jsonMembers rest

/-- The items of an array shape. -/
def jsonItems : Option Shape → List (String × Json)
  | none => []
  | some node => [("items", .object (jsonFields node))]

/-- The members of a union. -/
def jsonVariants : List Shape → List Json
  | [] => []
  | v :: rest => .object (jsonFields v) :: jsonVariants rest

end

/-- The shape as a JSON value. -/
def toJson (s : Shape) : Json :=
  .object (jsonFields s)

end EntityDump.Shape
