import EntityDump.Accumulator
import EntityDump.Pattern
/-!
# Shapes

The shape of the values seen at one place of some documents: which kinds of values, and what is known of each
kind. Shapes of two observations of one place merge. Objects unite their fields, and a field that some object
lacks becomes optional; arrays widen the range of their lengths and merge their items; different kinds form a
union with one member for each kind.
-/

namespace EntityDump

/-- What has been seen at one place. -/
inductive Shape where
  /-- Objects: their fields in the order first seen, each with whether some object lacks it. Of truncated
  objects the fields were not looked at. -/
  | object (fields : List (String × Bool × Shape)) (truncated : Bool)
  /-- Arrays: the least and greatest length, and the shape of all items, if there are any. Of truncated
  arrays the items were not looked at. -/
  | array (minLen maxLen : Nat) (items : Option Shape) (truncated : Bool)
  /-- Strings: the patterns of those that have one, and some examples of the others. -/
  | string (patterns : List Pattern) (examples : List String)
  /-- Numbers: the least, the greatest, and whether all were whole numbers. -/
  | number (min max : Float) (integer : Bool)
  | boolean
  | null
  /-- Values of several kinds. -/
  | union (variants : List Shape)

/-- The kinds of values. -/
inductive ShapeKind where
  | object
  | array
  | string
  | number
  | boolean
  | null
  | union
  deriving DecidableEq, Repr

namespace ShapeKind

/-- The name of a kind. -/
def name : ShapeKind → String
  | object => "object"
  | array => "array"
  | string => "string"
  | number => "number"
  | boolean => "boolean"
  | null => "null"
  | union => "union"

/-- The place of a kind among the members of a union. -/
def rank : ShapeKind → Nat
  | object => 0
  | array => 1
  | string => 2
  | number => 3
  | boolean => 4
  | null => 5
  | union => 6

end ShapeKind

namespace Shape

/-- A field of an object: its key, whether some object lacks it, and its shape. -/
abbrev Field := String × Bool × Shape

/-- The kind of a shape. -/
def kind : Shape → ShapeKind
  | object _ _ => .object
  | array _ _ _ _ => .array
  | string _ _ => .string
  | number _ _ _ => .number
  | boolean => .boolean
  | null => .null
  | union _ => .union

mutual

/-- The shape has children to show: it is an object or array or has one among its members. -/
def isContainer : Shape → Bool
  | object _ _ => true
  | array _ _ _ _ => true
  | union variants => anyContainer variants
  | _ => false

/-- Some member is a container. -/
def anyContainer : List Shape → Bool
  | [] => false
  | v :: rest => isContainer v || anyContainer rest

end

/-! ### Merging what is no container -/

/-- The patterns of both lists, in their usual order. -/
def mergePatterns (a b : List Pattern) : List Pattern :=
  Pattern.all.filter fun p => a.contains p || b.contains p

/-- Adds examples that are new, up to a number of examples. -/
def mergeExamples (maxSamples : Nat) (mine incoming : List String) : List String :=
  incoming.foldl (fun examples e =>
    if examples.length < maxSamples && !examples.contains e then examples ++ [e] else examples) mine

/-- The key is among the fields. -/
def hasKey (key : String) (fields : List Field) : Bool :=
  fields.any fun field => field.1 == key

/-- Makes optional what the other object lacks. -/
def markMissing (mine incoming : List Field) : List Field :=
  mine.map fun field =>
    if hasKey field.1 incoming then field else (field.1, true, field.2.2)

/-- Changes the field under a key, or adds it at the end. -/
def upsert (key : String) (change : Bool × Shape → Bool × Shape) (add : Bool × Shape) :
    List Field → List Field
  | [] => [(key, add)]
  | field :: rest =>
    if field.1 = key then (key, change field.2) :: rest else field :: upsert key change add rest

/-! ### Merging -/

/-- Adds a shape that is no union to the members of one: `same` merges it into the member of its kind. -/
def addMember (members : List Shape) (incoming : Shape) (same : Shape → Shape) : List Shape :=
  match members.findIdx? fun m => m.kind == incoming.kind with
  | some i => members.modify i same
  | none => (members ++ [incoming]).mergeSort fun a b => a.kind.rank ≤ b.kind.rank

/-- Merges a shape into another, given how it merges into one of the same kind and how it is added to the
members of a union. -/
def mergeBy (mine : Shape) (incoming : ShapeKind) (same : Shape → Shape)
    (add : List Shape → List Shape) : Shape :=
  match mine with
  | union members => union (add members)
  | mine => if mine.kind = incoming then same mine else union (add [mine])

mutual

/-- Merges a shape, given first, into another of its kind. At most `maxSamples` examples are kept. -/
def mergeSame (maxSamples : Nat) : Shape → Shape → Shape
  | object fields cut, mine =>
    match mine with
    | object mine mineCut =>
      if mineCut || cut then object (if mine.isEmpty then fields else mine) true
      else object (mergeFields maxSamples fields (markMissing mine fields)) false
    | _ => mine
  | array minLen maxLen items cut, mine =>
    match mine with
    | array mineMin mineMax mineItems mineCut =>
      array (Nat.min mineMin minLen) (Nat.max mineMax maxLen)
        (mergeItems maxSamples items mineItems) (mineCut || cut)
    | _ => mine
  | string patterns examples, mine =>
    match mine with
    | string minePatterns mineExamples =>
      string (mergePatterns minePatterns patterns) (mergeExamples maxSamples mineExamples examples)
    | _ => mine
  | number min max integer, mine =>
    match mine with
    | number mineMin mineMax mineInteger =>
      number (Accumulator.lesser mineMin min) (Accumulator.greater mineMax max)
        (mineInteger && integer)
    | _ => mine
  | union members, mine =>
    match mine with
    | union mine => union (mergeMembers maxSamples members mine)
    | _ => mine
  | boolean, mine => mine
  | null, mine => mine
termination_by structural incoming => incoming

/-- Merges the fields of an object, given first, into those of another. -/
def mergeFields (maxSamples : Nat) : List (String × Bool × Shape) → List Field → List Field
  | [], mine => mine
  | (key, optional, node) :: rest, mine =>
    mergeFields maxSamples rest
      (upsert key
        (fun field =>
          (field.1 || optional,
            mergeBy field.2 node.kind (mergeSame maxSamples node) fun members =>
              match node with
              | union incoming => mergeMembers maxSamples incoming members
              | node => addMember members node (mergeSame maxSamples node)))
        (true, node) mine)
termination_by structural incoming => incoming

/-- Merges the shape of items, given first, into another. -/
def mergeItems (maxSamples : Nat) : Option Shape → Option Shape → Option Shape
  | none, mine => mine
  | some node, none => some node
  | some node, some mine =>
    some (mergeBy mine node.kind (mergeSame maxSamples node) fun members =>
      match node with
      | union incoming => mergeMembers maxSamples incoming members
      | node => addMember members node (mergeSame maxSamples node))
termination_by structural incoming => incoming

/-- Adds the members of a union, given first, to those of another. -/
def mergeMembers (maxSamples : Nat) : List Shape → List Shape → List Shape
  | [], mine => mine
  | node :: rest, mine =>
    mergeMembers maxSamples rest
      (match node with
      | union incoming => mergeMembers maxSamples incoming mine
      | node => addMember mine node (mergeSame maxSamples node))
termination_by structural incoming => incoming

end

/-- Adds a shape to the members of a union. -/
def addTo (maxSamples : Nat) (incoming : Shape) (members : List Shape) : List Shape :=
  match incoming with
  | union incoming => mergeMembers maxSamples incoming members
  | incoming => addMember members incoming (mergeSame maxSamples incoming)

/-- The shape of two observations of one place. -/
def merge (maxSamples : Nat) (mine incoming : Shape) : Shape :=
  mergeBy mine incoming.kind (mergeSame maxSamples incoming) (addTo maxSamples incoming)

end Shape

end EntityDump
