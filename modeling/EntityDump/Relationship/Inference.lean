import EntityDump.Relationship.Inventory
/-!
# Relationships between id fields

A field on the left is related to a field on the right if enough of its values occur there. The coverage is
the share of the distinct left values that do, in percent. `inferRelationships` lists all pairs of a
sufficient coverage, the best first.
-/

namespace EntityDump

/-- How many partners the elements on either side have. -/
inductive Cardinality where
  | oneToOne
  | oneToMany
  | manyToOne
  | manyToMany
  deriving DecidableEq, Repr

namespace Cardinality

/-- The name of a cardinality. -/
def name : Cardinality → String
  | oneToOne => "one-to-one"
  | oneToMany => "one-to-many"
  | manyToOne => "many-to-one"
  | manyToMany => "many-to-many"

/-- A side is many if its path leads through an array. If neither does, the sides are one to one when they
have equally many values, and else many to one. -/
def between (left right : IdField) : Cardinality :=
  match left.wildcard, right.wildcard with
  | true, true => manyToMany
  | true, false => oneToMany
  | false, true => manyToOne
  | false, false =>
    if left.distinctValues = right.distinctValues then oneToOne else manyToOne

end Cardinality

/-- A left path whose values occur at a right path. -/
structure Relationship where
  leftPath : String
  rightPath : String
  cardinality : Cardinality
  /-- The distinct left values that occur on the right. -/
  matchedCount : Nat
  /-- The distinct left values. -/
  totalCount : Nat
  /-- The share of the left values that occur on the right, in percent. -/
  coverage : Float

namespace Relationship

/-- The share of a count, in percent. -/
def percentage (count total : Nat) : Float :=
  Float.ofNat count / Float.ofNat total * 100.0

/-- How two fields are related, if they share a value and the coverage is not below the least one. -/
def between? (minCoverage : Float) (left right : IdField) : Option Relationship :=
  let matched := left.sharedValues right
  let coverage := percentage matched left.distinctValues
  if matched = 0 then none
  else if coverage < minCoverage then none
  else
    some ⟨left.path, right.path, .between left right, matched, left.distinctValues, coverage⟩

/-- The first is listed before the second: by descending coverage, then descending number of matches, then
the left and the right path. -/
def precedes (a b : Relationship) : Bool :=
  if b.coverage < a.coverage then true
  else if a.coverage < b.coverage then false
  else if a.matchedCount ≠ b.matchedCount then b.matchedCount < a.matchedCount
  else if a.leftPath ≠ b.leftPath then a.leftPath < b.leftPath
  else a.rightPath ≤ b.rightPath

end Relationship

/-- All relationships of left fields to right fields, the best first. A path of a source is not paired with
itself. -/
def inferRelationships (left right : Inventory) (minCoverage : Float) (sameSource : Bool) :
    List Relationship :=
  let found := left.fields.flatMap fun l =>
    right.fields.filterMap fun r =>
      if sameSource && l.path == r.path then none
      else Relationship.between? minCoverage l r
  found.mergeSort Relationship.precedes

end EntityDump
