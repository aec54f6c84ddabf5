import EntityDump.Filter.Compare
import EntityDump.Path.Parser
import EntityDump.Path.Selection
/-!
# Conditions

A condition compares what a path selects with a literal: `payload.level >= 10`. The operator is looked for
outside brackets and before the first quote. A condition on pairs may name the side its path reads by `a.`
or `b.`.
-/

namespace EntityDump

open Text

/-- How a selected value is compared with the literal. -/
inductive Operator where
  | greaterEq
  | lessEq
  | notEqual
  | equal
  | greater
  | less
  | contains
  | startsWith
  | endsWith
  | exist
  deriving DecidableEq, Repr

namespace Operator

/-- The operators in the order in which they are looked for. Those of two signs come before the signs that
they are made of. -/
def all : List Operator :=
  [greaterEq, lessEq, notEqual, equal, greater, less, contains, startsWith, endsWith, exist]

/-- The spelling of an operator. -/
def symbol : Operator → String
  | greaterEq => ">="
  | lessEq => "<="
  | notEqual => "!="
  | equal => "="
  | greater => ">"
  | less => "<"
  | contains => "contains"
  | startsWith => "startsWith"
  | endsWith => "endsWith"
  | exist => "exists"

/-- The operator is a word, which stands between blanks. -/
def isWord : Operator → Bool
  | contains => true
  | startsWith => true
  | endsWith => true
  | exist => true
  | _ => false

/-- Compares a selected value with the literal. -/
def holds (operator : Operator) (value literal : Json) : Bool :=
  match operator with
  | equal => Compare.equal value literal
  | notEqual => !Compare.equal value literal
  | greater => Compare.order? value literal == some .gt
  | less => Compare.order? value literal == some .lt
  | greaterEq => (Compare.order? value literal).any fun o => o != .lt
  | lessEq => (Compare.order? value literal).any fun o => o != .gt
  | contains => Compare.contains value literal
  | startsWith => Compare.startsWith value literal
  | endsWith => Compare.endsWith value literal
  | exist => !value.isNull

/-- Whether the condition holds where nothing is selected. -/
def holdsOfNothing (operator : Operator) : Bool :=
  operator == notEqual

end Operator

/-! ### Where an operator may stand -/

/-- Reading a condition's text for its operator: how many brackets are open, and the quote inside them that
is. -/
structure Mask where
  depth : Nat := 0
  quote : Option Char := none
  deriving DecidableEq, Repr

/-- The character that stands for one inside brackets. -/
def maskChar : Char := '_'

/-- The state after a character; nothing if the character is a quote outside brackets, where a literal
begins. -/
def Mask.next? (m : Mask) (c : Char) : Option Mask :=
  match m.quote with
  | some q => some (if c = q then { m with quote := none } else m)
  | none =>
    if c = '[' then some { m with depth := m.depth + 1 }
    else if c = ']' then some { m with depth := m.depth - 1 }
    else if Path.isQuote c then
      if m.depth > 0 then some { m with quote := some c } else none
    else some m

/-- The text up to the first quote outside brackets, with a mask character for each character of a bracket,
the brackets included. It has one character for each character of the text. -/
def Mask.apply (m : Mask) : List Char → List Char
  | [] => []
  | c :: rest =>
    match m.next? c with
    | none => []
    | some next =>
      (if m.depth > 0 || next.depth > 0 then maskChar else c) :: next.apply rest

/-- The part of a condition's text in which its operator is looked for. -/
def operatorScan (s : List Char) : List Char :=
  Mask.apply {} s

/-- The first position, from `position` on, where a word stands with a blank before it and a blank or
nothing behind it. `before` is the character before the given ones. -/
def findWord? (word : List Char) (position : Nat) (before : Option Char) : List Char → Option Nat
  | [] => none
  | c :: rest =>
    let here := (dropStart? word (c :: rest)).any fun behind =>
      before.any isBlank && behind.head?.all isBlank
    if here then some position else findWord? word (position + 1) (some c) rest

/-- Where an operator stands in the part of a text in which it may. -/
def Operator.find? (operator : Operator) (scan : List Char) : Option Nat :=
  let word := operator.symbol.toList
  if operator.isWord then findWord? word 0 none scan else Text.find? word scan

/-- The text before and behind an operator. -/
def Operator.split? (operator : Operator) (s : List Char) : Option (List Char × List Char) :=
  (operator.find? (operatorScan s)).map fun (i : Nat) =>
    (s.take i, s.drop (i + operator.symbol.toList.length))

/-! ### Literals -/

/-- The value of a literal: a string between quotes, `true`, `false`, `null`, a number, or else the text
itself as a string. -/
def readLiteral (s : List Char) : Json :=
  let s := trim s
  match (Path.unquote? '"' s).orElse fun _ => Path.unquote? '\'' s with
  | some inner => .string (String.ofList inner)
  | none =>
    let word := String.ofList s
    if word = "true" then .bool true
    else if word = "false" then .bool false
    else if word = "null" then .null
    else
      match Numeric.readInt64? s with
      | some n => .number (.int n)
      | none =>
        match (Numeric.readFloat? s).filter Numeric.isFinite with
        | some x => .number (.float x)
        | none => .string word

/-! ### Sides -/

/-- The element of a pair that a condition or a field reads. -/
inductive Side where
  | left
  | right
  deriving DecidableEq, Repr

/-- The side that a text names, and the text without the name. Without a name it is the left side. -/
def splitSide (s : List Char) : Side × List Char :=
  match s with
  | 'a' :: '.' :: rest => (.left, rest)
  | 'b' :: '.' :: rest => (.right, rest)
  | _ => (.left, s)

/-! ### Conditions -/

/-- A comparison of what a path selects with a literal. -/
structure Condition where
  side : Side
  path : Path
  operator : Operator
  /-- Null where the operator takes no literal. -/
  literal : Json

namespace Condition

/-- Reads a condition around one operator. Nothing is given if the operator does not stand in the text with
a path before it and a literal behind it as it needs; `some none` if it does and the path is wrong. -/
def parseAround? (twoSided : Bool) (s : List Char) (operator : Operator) : Option (Option Condition) :=
  match operator.split? s with
  | none => none
  | some (lhs, rhs) =>
    let lhs := trim lhs
    let rhs := trim rhs
    if lhs.isEmpty || lhs.any isBlank then none
    else if (operator == .exist) != rhs.isEmpty then none
    else
      let literal := if operator == .exist then .null else readLiteral rhs
      let (side, path) := if twoSided then splitSide lhs else (.left, lhs)
      match Path.parse (String.ofList path) with
      | .ok path => some (some ⟨side, path, operator, literal⟩)
      | .error _ => some none

/-- Reads a condition around the first operator that stands right. -/
def parseChars? (twoSided : Bool) (s : List Char) : Option Condition :=
  (Operator.all.findSome? (parseAround? twoSided (trim s))).join

/-- Reads a condition; `twoSided` if its path may name a side. -/
def parse? (twoSided : Bool) (text : String) : Option Condition :=
  parseChars? twoSided text.toList

/-- The condition as text. -/
def text (c : Condition) : String :=
  let side := match c.side with
    | .left => ""
    | .right => "b."
  if c.operator = .exist then side ++ c.path.text ++ " exists"
  else side ++ c.path.text ++ " " ++ c.operator.symbol ++ " " ++ c.literal.compact

/-- One of the selected values compares with the literal as the operator says. -/
def holds (c : Condition) (value : Json) : Bool :=
  match c.path.select value with
  | [] => c.operator.holdsOfNothing
  | selected => selected.any fun v => c.operator.holds v c.literal

/-- The condition holds of the element of a pair that its side names. -/
def holdsOfPair (c : Condition) (left right : Json) : Bool :=
  match c.side with
  | .left => c.holds left
  | .right => c.holds right

end Condition

end EntityDump
