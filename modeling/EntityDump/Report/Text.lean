import EntityDump.Report.Amount
import EntityDump.Report.Json
import EntityDump.Report.Table
/-!
# Reports as text

Each answer for reading at a terminal: tables, labelled numbers, items one to a line, and the outline of a
shape. A note at the end tells when some filter text was left out.
-/

namespace EntityDump

namespace Report

/-- The note on filter text that was left out, if some was. -/
def filterNote (ignored : Bool) : String :=
  if ignored then "note: filter ignored (no comparison operator recognized)\n" else ""

/-- Items, one to a line. -/
def itemLines (items : List Json) : String :=
  String.join (items.map fun item => item.compact ++ "\n")

/-- A label with its value. -/
def labelled (label value : String) : String :=
  Table.padded .left 8 label ++ value ++ "\n"

/-! ### Tables -/

/-- The groups of a grouping. -/
def groupTable (r : GroupResult) : Table where
  columns := [("value", .left), ("count", .right), ("share", .right)]
  rows := r.groups.map fun group => [group.1, toString group.2, share group.2 r.total]

/-- The buckets of a histogram, each with a bar. -/
def bucketTable (buckets : List Bucket) : Table where
  columns := [("range", .left), ("count", .right), ("share", .right), ("", .left)]
  rows :=
    let peak := (buckets.map Bucket.count).foldl max 0
    buckets.map fun b =>
      ["[" ++ amount b.start ++ ", " ++ amount b.stop ++ ")", toString b.count,
        percentage b.percentage, bar b.count peak]

/-- The groups of aggregates, with a column for each function. -/
def aggregateTable (r : AggregateResult) (functions : List AggregateFunction) : Table where
  columns :=
    ("group", .left) :: ("elements", .right) :: functions.map fun f => (f.name, .right)
  rows := r.groups.map fun g =>
    g.key :: toString g.elements :: functions.map fun f => amount (g.value f)

/-- Relationships. -/
def relationshipTable (relationships : List Relationship) : Table where
  columns :=
    [("left", .left), ("right", .left), ("type", .left), ("matched", .right), ("coverage", .right)]
  rows := relationships.map fun r =>
    [r.leftPath, r.rightPath, r.cardinality.name, s!"{r.matchedCount}/{r.totalCount}",
      percentage r.coverage]

/-- Id fields. -/
def idFieldTable (fields : List IdFieldSummary) : Table where
  columns :=
    [("path", .left), ("distinct", .right), ("seen", .right), ("pattern", .left),
      ("examples", .left)]
  rows := fields.map fun s =>
    [s.path, toString s.distinctValues, toString s.occurrences, s.pattern.elim "" Pattern.name,
      ", ".intercalate s.examples]

end Report

open Report

/-! ### Answers -/

/-- A count. -/
def CountResult.text (r : CountResult) : String :=
  s!"count: {r.total}\nscanned: {r.scanned}\n" ++ filterNote r.filterIgnored

/-- A grouping. -/
def GroupResult.text (r : GroupResult) : String :=
  (groupTable r).text ++
    s!"\n{r.uniqueValues} distinct values over {r.total} elements (scanned {r.scanned})\n" ++
    filterNote r.filterIgnored

/-- Statistics. -/
def StatsResult.text (r : StatsResult) : String :=
  labelled "count" (toString r.count) ++ labelled "sum" (amount r.sum) ++
    labelled "avg" (amount r.avg) ++ labelled "min" (amount r.min) ++
    labelled "max" (amount r.max) ++ labelled "scanned" (toString r.scanned) ++
    filterNote r.filterIgnored

/-- A histogram. -/
def HistogramResult.text (r : HistogramResult) : String :=
  (if r.buckets.isEmpty then "no numeric values\n" else (bucketTable r.buckets).text) ++
    s!"\n{r.total} values, min " ++ amount r.min ++ ", max " ++ amount r.max ++
    s!" (scanned {r.scanned})\n" ++ filterNote r.filterIgnored

/-- A page. -/
def PageResult.text (r : PageResult) : String :=
  itemLines r.items ++
    s!"\n{r.items.length} shown, {r.totalMatched} matched, {r.totalScanned} scanned\n" ++
    filterNote r.filterIgnored

/-- Aggregates, with columns for some functions; none means all of them. -/
def AggregateResult.text (r : AggregateResult) (functions : List AggregateFunction) : String :=
  let functions := if functions.isEmpty then AggregateFunction.all else functions
  (aggregateTable r functions).text ++
    s!"\n{r.groups.length} groups over {r.total} elements (scanned {r.scanned})\n" ++
    filterNote r.filterIgnored

/-- A sample. -/
def SampleResult.text (r : SampleResult) : String :=
  String.join (r.items.map fun item => s!"#{item.index}\n" ++ item.value.pretty 0 ++ "\n\n") ++
    s!"{r.items.length} sampled from {r.matchedCount} matching ({r.totalScanned} scanned)\n" ++
    filterNote r.filterIgnored

/-- Relationships, with the id fields if they were asked for. -/
def RelationshipResult.text (r : RelationshipResult) : String :=
  let found :=
    if r.relationships.isEmpty then "no relationships found\n"
    else (relationshipTable r.relationships).text
  let inventory (file : String) (fields : List IdFieldSummary) : String :=
    s!"\nid fields in {file}\n" ++ (idFieldTable fields).text
  s!"{r.left} -> {r.right} (min coverage " ++ amount r.minCoverage ++ "%)\n\n" ++ found ++
    r.leftFields.elim "" (inventory r.left) ++ r.rightFields.elim "" (inventory r.right) ++
    s!"\nscanned {r.leftScanned} left and {r.rightScanned} right elements\n"

/-- A join. -/
def JoinResult.text (r : JoinResult) : String :=
  let detection :=
    if !r.autoDetected then ""
    else
      match r.coverage with
      | some coverage => " (auto-detected, " ++ percentage coverage ++ " coverage)"
      | none => " (auto-detected)"
  s!"joined on a.{r.leftKey} = b.{r.rightKey}" ++ detection ++ "\n\n" ++ itemLines r.items ++
    s!"\n{r.items.length} shown, {r.totalMatched} matched; scanned {r.leftScanned} left, " ++
    s!"{r.rightScanned} right ({r.indexKeys} distinct keys)\n" ++ filterNote r.filterIgnored

/-- What came out for a name, with the members of the type. -/
def LookupOutcome.text (o : LookupOutcome) : String :=
  match o.symbol with
  | none => s!"{o.typeName}: not found\n"
  | some s =>
    let member (m : SymbolMember) : String :=
      "  " ++ m.name ++ " " ++ m.typeName.getD "?" ++ "\n"
    s!"{o.typeName}: " ++ s.kind.getD "type" ++ s.enclosing.elim "" (" in " ++ ·) ++
      s.baseType.elim "" (" : " ++ ·) ++ "\n" ++ String.join (s.members.map member)

namespace Report

/-- A report as text. -/
def text : Report → String
  | count result => result.text
  | groups result => result.text
  | stats result => result.text
  | histogram result => result.text
  | page result => result.text
  | aggregates result functions => result.text functions
  | sample result => result.text
  | shape s => s.outline
  | relationships result => result.text
  | join result => result.text
  | lookups outcomes => String.join (outcomes.map LookupOutcome.text)

/-- A report in a format, with a line break at its end. -/
def render (report : Report) : Format → String
  | .text => report.text
  | .json => report.toJson.pretty 0 ++ "\n"

end Report

end EntityDump
