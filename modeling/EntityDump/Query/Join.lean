import EntityDump.Join.Keys
import EntityDump.Join.RightIndex
import EntityDump.Query.Projection
/-!
# Joins

Pairs of elements of two sources that have a key in common. The source on the right is indexed, then the one on
the left is read and each element is paired with what the index holds under its keys. A filter on pairs says
which of them count.
-/

namespace EntityDump

/-- Which join is asked for. -/
structure JoinOptions where
  leftKey : Option String := none
  rightKey : Option String := none
  /-- Fields of the items, each of the side that its text names; none for both elements in full. -/
  select : List String := []
  filter : Option String := none
  /-- The most items, if other than usual. -/
  limit : Option Nat := none
  deriving DecidableEq, Repr

/-- The answer to a question for a join. -/
structure JoinResult where
  items : List Json
  /-- The pairs that pass, beyond the limit too. -/
  totalMatched : Nat
  leftScanned : Nat
  rightScanned : Nat
  /-- The distinct keys on the right. -/
  indexKeys : Nat
  leftKey : String
  rightKey : String
  /-- A key was not given. -/
  autoDetected : Bool
  /-- The coverage of the relationship that gave the keys. -/
  coverage : Option Float
  /-- Some filter text was left out. -/
  filterIgnored : Bool

/-! ### Items -/

/-- A field of an item, with the side that it is taken from. -/
structure SideProjection where
  name : String
  side : Side
  projection : Projection

namespace SideProjection

/-- Reads a field with an optional side before it. -/
def parse (field : String) : Except Error SideProjection := do
  let name := Text.trim field.toList
  let (side, path) := splitSide name
  return ⟨String.ofList name, side, ← Projection.parse (String.ofList path)⟩

/-- The field of a pair. -/
def resolve (p : SideProjection) (left right : Json) : Json :=
  match p.side with
  | .left => p.projection.resolve left
  | .right => p.projection.resolve right

end SideProjection

/-- The item of a pair: the fields that are asked for, or both elements in full. -/
def joinItem (select : List SideProjection) (left right : Json) : Json :=
  if select.isEmpty then .object [("left", left), ("right", right)]
  else Projection.collect (select.map fun p => (p.name, p.resolve left right))

/-! ### Joining -/

/-- A join that is being read, the last item first. -/
structure JoinState where
  reversed : List Json := []
  /-- The number of items so far. -/
  length : Nat := 0
  matched : Nat := 0
  scanned : Nat := 0

/-- Takes one element on the left. -/
def JoinState.step (index : RightIndex) (leftPath : Path) (filter : FilterSet)
    (select : List SideProjection) (limit : Nat) (s : JoinState) (left : Json) : JoinState :=
  let passing := (index.partners leftPath left).filter fun right => filter.acceptsPair left right
  let taken := passing.take (limit - s.length)
  { reversed := (taken.map (joinItem select left)).reverse ++ s.reversed
    length := s.length + taken.length
    matched := s.matched + passing.length
    scanned := s.scanned + 1 }

/-- Joins two sources. -/
def Engine.join (engine : Engine) (left right : Source) (options : JoinOptions) :
    Except Error JoinResult := do
  let filter ← engine.pairFilter options.filter
  let select ← options.select.mapM SideProjection.parse
  let limit := options.limit.getD engine.config.query.defaultLimit
  let keys ← engine.joinKeys left right options.leftKey options.rightKey
  let leftPath ← Path.parse keys.left
  let rightPath ← Path.parse keys.right
  let index ← engine.rightIndex right rightPath
  let s ← engine.scan left (JoinState.step index leftPath filter select limit) {}
  return {
    items := s.reversed.reverse
    totalMatched := s.matched
    leftScanned := s.scanned
    rightScanned := index.scanned
    indexKeys := index.size
    leftKey := keys.left
    rightKey := keys.right
    autoDetected := options.leftKey.isNone || options.rightKey.isNone
    coverage := keys.coverage
    filterIgnored := filter.filterIgnored }

end EntityDump
