import EntityDump.Filter.Condition
/-!
# Sets of conditions

An element passes a set of conditions if all of them hold. A filter text holds conditions between double
ampersands; what is no condition is refused when filters are strict, and otherwise left out and remembered.
-/

namespace EntityDump

open Text

/-- Conditions that must all hold, and the texts that were left out. -/
structure FilterSet where
  conditions : List Condition := []
  ignored : List String := []

namespace FilterSet

/-- What stands between two conditions. -/
def separator : List Char := ['&', '&']

/-- Reads one condition; when filters are strict a text that is none is refused. -/
def resolve (strict twoSided : Bool) (s : List Char) : Except Error (Option Condition) :=
  match Condition.parseChars? twoSided s with
  | some c => .ok (some c)
  | none => if strict then .error (.invalidFilter (String.ofList (trim s))) else .ok none

/-- Adds one part of a filter text; blank parts count for nothing. -/
def addPart (strict twoSided : Bool) (set : FilterSet) (part : List Char) : Except Error FilterSet :=
  if (trim part).isEmpty then .ok set
  else
    (resolve strict twoSided part).map fun
      | some c => { set with conditions := set.conditions ++ [c] }
      | none => { set with ignored := set.ignored ++ [String.ofList (trim part)] }

/-- Reads filter texts, in order. The first text that is refused counts. -/
def parse (strict twoSided : Bool) (expressions : List String) : Except Error FilterSet :=
  (expressions.flatMap fun e => splitAll separator e.toList).foldlM (addPart strict twoSided) {}

/-- Some text was left out. -/
def filterIgnored (set : FilterSet) : Bool :=
  !set.ignored.isEmpty

/-- There is no condition. -/
def isEmpty (set : FilterSet) : Bool :=
  set.conditions.isEmpty

/-- All conditions hold. -/
def accepts (set : FilterSet) (value : Json) : Bool :=
  set.conditions.all fun c => c.holds value

/-- All conditions hold of the pair. -/
def acceptsPair (set : FilterSet) (left right : Json) : Bool :=
  set.conditions.all fun c => c.holdsOfPair left right

end FilterSet

end EntityDump
