import EntityDump.Lookup.Symbol
import EntityDump.Query.Aggregate
import EntityDump.Query.Count
import EntityDump.Query.Histogram
import EntityDump.Query.Join
import EntityDump.Query.Page
import EntityDump.Query.Relationships
import EntityDump.Query.Sample
import EntityDump.Query.Schema
/-!
# Reports

The answer to any question, to be shown as JSON or as text.
-/

namespace EntityDump

/-- An answer to show. -/
inductive Report where
  | count (result : CountResult)
  | groups (result : GroupResult)
  | stats (result : StatsResult)
  | histogram (result : HistogramResult)
  | page (result : PageResult)
  /-- Aggregates with the functions that are columns of a text; none for all of them. -/
  | aggregates (result : AggregateResult) (functions : List AggregateFunction)
  | sample (result : SampleResult)
  | shape (shape : Shape)
  | relationships (result : RelationshipResult)
  | join (result : JoinResult)
  | lookups (outcomes : List LookupOutcome)

/-- How a report is shown. -/
inductive Format where
  | text
  | json
  deriving DecidableEq, Repr

/-- The name of a format. -/
def Format.name : Format → String
  | .text => "text"
  | .json => "json"

end EntityDump
