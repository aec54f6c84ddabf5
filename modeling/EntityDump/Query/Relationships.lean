import EntityDump.Engine
import EntityDump.Relationship.Inference
/-!
# Relationships between two sources

Each source is read once for its id fields; then the fields are paired.
-/

namespace EntityDump

/-- Which relationships are asked for. -/
structure RelationshipOptions where
  /-- The least coverage, if other than usual. -/
  minCoverage : Option Float := none
  /-- The id fields of both sources are reported too. -/
  verbose : Bool := false

/-- The answer to a question for relationships. -/
structure RelationshipResult where
  /-- The file on the left. -/
  left : String
  /-- The file on the right. -/
  right : String
  minCoverage : Float
  relationships : List Relationship
  leftScanned : Nat
  rightScanned : Nat
  /-- The id fields on the left, if they were asked for. -/
  leftFields : Option (List IdFieldSummary)
  /-- The id fields on the right, if they were asked for. -/
  rightFields : Option (List IdFieldSummary)

namespace Engine

/-- The id fields of a source. -/
def idFields (engine : Engine) (source : Source) : Except Error Inventory :=
  engine.scan source Inventory.observe {}

/-- The relationships of the fields of one source to those of another. -/
def relationships (engine : Engine) (left right : Source) (options : RelationshipOptions) :
    Except Error RelationshipResult := do
  let inference := engine.config.inference
  let minCoverage := options.minCoverage.getD inference.minCoverage
  let leftFields ← engine.idFields left
  let rightFields ← engine.idFields right
  let summaries (inventory : Inventory) : Option (List IdFieldSummary) :=
    if options.verbose then some (inventory.summaries inference.maxExamples) else none
  return {
    left := left.path
    right := right.path
    minCoverage := minCoverage
    relationships := inferRelationships leftFields rightFields minCoverage (left.same right)
    leftScanned := leftFields.scanned
    rightScanned := rightFields.scanned
    leftFields := summaries leftFields
    rightFields := summaries rightFields }

end Engine

end EntityDump
