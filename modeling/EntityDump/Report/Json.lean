import EntityDump.Report.Basic
import EntityDump.Shape.Outline
/-!
# Reports as JSON

Each answer as an object with its fields in a fixed order. Fields that an answer does not have are left
out.
-/

namespace EntityDump

namespace Report

/-- A field that may be missing. -/
def optionalField {α : Type} (key : String) (encode : α → Json) (value : Option α) :
    List (String × Json) :=
  value.toList.map fun v => (key, encode v)

/-- An array of texts. -/
def stringArray (texts : List String) : Json :=
  .array (texts.map .string)

end Report

open Report

/-! ### Parts of answers -/

/-- A bucket. -/
def Bucket.toJson (b : Bucket) : Json :=
  .object [("index", .ofNat b.index), ("start", .ofFloat b.start), ("end", .ofFloat b.stop),
    ("count", .ofNat b.count), ("percentage", .ofFloat b.percentage)]

/-- The aggregates of a group. -/
def AggregateGroup.toJson (g : AggregateGroup) : Json :=
  .object [("key", .string g.key), ("elements", .ofNat g.elements), ("count", .ofNat g.count),
    ("sum", .ofFloat g.sum), ("avg", .ofFloat g.avg), ("min", .ofFloat g.min),
    ("max", .ofFloat g.max), ("conditionCount", .ofNat g.conditionCount)]

/-- An item of a sample. -/
def SampledElement.toJson (e : SampledElement) : Json :=
  .object [("index", .ofNat e.index), ("value", e.value)]

/-- A relationship. -/
def Relationship.toJson (r : Relationship) : Json :=
  .object [("leftPath", .string r.leftPath), ("rightPath", .string r.rightPath),
    ("relationshipType", .string r.cardinality.name), ("matchedCount", .ofNat r.matchedCount),
    ("totalCount", .ofNat r.totalCount), ("coverage", .ofFloat r.coverage)]

/-- An id field. -/
def IdFieldSummary.toJson (s : IdFieldSummary) : Json :=
  .object ([("path", .string s.path), ("distinctValues", .ofNat s.distinctValues),
      ("occurrences", .ofNat s.occurrences)] ++
    optionalField "pattern" (fun p => .string p.name) s.pattern ++
    [("examples", stringArray s.examples)])

/-- A member of a type. -/
def SymbolMember.toJson (m : SymbolMember) : Json :=
  .object ([("name", .string m.name)] ++ optionalField "type" .string m.typeName ++
    optionalField "kind" .string m.kind)

/-- What is known of a type. -/
def Symbol.toJson (s : Symbol) : Json :=
  let members :=
    if s.members.isEmpty then [] else [("members", .array (s.members.map SymbolMember.toJson))]
  .object ([("name", .string s.name)] ++ optionalField "kind" .string s.kind ++
    optionalField "namespace" .string s.enclosing ++ optionalField "baseType" .string s.baseType ++
    members ++ s.extra)

/-- What came out for a name. -/
def LookupOutcome.toJson (o : LookupOutcome) : Json :=
  .object ([("typeName", .string o.typeName), ("found", .bool o.found)] ++
    optionalField "symbol" Symbol.toJson o.symbol)

/-! ### Answers -/

/-- A count. -/
def CountResult.toJson (r : CountResult) : Json :=
  .object [("total", .ofNat r.total), ("scanned", .ofNat r.scanned),
    ("filterIgnored", .bool r.filterIgnored)]

/-- A grouping, with the groups in their order. -/
def GroupResult.toJson (r : GroupResult) : Json :=
  .object [("groups", .object (r.groups.map fun group => (group.1, .ofNat group.2))),
    ("total", .ofNat r.total), ("uniqueValues", .ofNat r.uniqueValues),
    ("scanned", .ofNat r.scanned), ("filterIgnored", .bool r.filterIgnored)]

/-- Statistics. -/
def StatsResult.toJson (r : StatsResult) : Json :=
  .object [("count", .ofNat r.count), ("sum", .ofFloat r.sum), ("avg", .ofFloat r.avg),
    ("min", .ofFloat r.min), ("max", .ofFloat r.max), ("scanned", .ofNat r.scanned),
    ("filterIgnored", .bool r.filterIgnored)]

/-- A histogram. -/
def HistogramResult.toJson (r : HistogramResult) : Json :=
  .object [("buckets", .array (r.buckets.map Bucket.toJson)), ("total", .ofNat r.total),
    ("min", .ofFloat r.min), ("max", .ofFloat r.max), ("scanned", .ofNat r.scanned),
    ("filterIgnored", .bool r.filterIgnored)]

/-- A page. -/
def PageResult.toJson (r : PageResult) : Json :=
  .object [("items", .array r.items), ("totalMatched", .ofNat r.totalMatched),
    ("totalScanned", .ofNat r.totalScanned), ("filterIgnored", .bool r.filterIgnored)]

/-- Aggregates. -/
def AggregateResult.toJson (r : AggregateResult) : Json :=
  .object [("groups", .array (r.groups.map AggregateGroup.toJson)), ("total", .ofNat r.total),
    ("scanned", .ofNat r.scanned), ("filterIgnored", .bool r.filterIgnored)]

/-- A sample. -/
def SampleResult.toJson (r : SampleResult) : Json :=
  .object [("items", .array (r.items.map SampledElement.toJson)),
    ("totalScanned", .ofNat r.totalScanned), ("matchedCount", .ofNat r.matchedCount),
    ("filterIgnored", .bool r.filterIgnored)]

/-- Relationships. -/
def RelationshipResult.toJson (r : RelationshipResult) : Json :=
  let summaries (fields : List IdFieldSummary) : Json := .array (fields.map IdFieldSummary.toJson)
  .object ([("left", .string r.left), ("right", .string r.right),
      ("minCoverage", .ofFloat r.minCoverage),
      ("relationships", .array (r.relationships.map Relationship.toJson)),
      ("leftScanned", .ofNat r.leftScanned), ("rightScanned", .ofNat r.rightScanned)] ++
    optionalField "leftFields" summaries r.leftFields ++
    optionalField "rightFields" summaries r.rightFields)

/-- A join. -/
def JoinResult.toJson (r : JoinResult) : Json :=
  .object ([("items", .array r.items), ("totalMatched", .ofNat r.totalMatched),
      ("leftScanned", .ofNat r.leftScanned), ("rightScanned", .ofNat r.rightScanned),
      ("indexKeys", .ofNat r.indexKeys), ("leftKey", .string r.leftKey),
      ("rightKey", .string r.rightKey), ("autoDetected", .bool r.autoDetected)] ++
    optionalField "coverage" .ofFloat r.coverage ++ [("filterIgnored", .bool r.filterIgnored)])

/-- A report as JSON. -/
def Report.toJson : Report → Json
  | count result => result.toJson
  | groups result => result.toJson
  | stats result => result.toJson
  | histogram result => result.toJson
  | page result => result.toJson
  | aggregates result _ => result.toJson
  | sample result => result.toJson
  | shape s => s.toJson
  | relationships result => result.toJson
  | join result => result.toJson
  | lookups outcomes => .array (outcomes.map LookupOutcome.toJson)

end EntityDump
