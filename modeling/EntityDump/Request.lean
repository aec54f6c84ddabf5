import EntityDump.Report.Basic
/-!
# Requests

A question with its options, and the report that answers it.
-/

namespace EntityDump

/-- A question about a source. -/
inductive Request where
  | count (filter : Option String)
  | groupBy (path : String) (filter : Option String)
  | stats (path : String) (filter : Option String)
  | distribution (path : String) (filter : Option String) (buckets : Option Nat)
  | query (options : PageOptions)
  | aggregate (options : AggregateOptions) (functions : List AggregateFunction)
  | sample (options : SampleOptions)
  | schema (options : ShapeOptions)
  | relationships (right : Source) (options : RelationshipOptions)
  | join (right : Source) (options : JoinOptions)

/-- Changes the filter of a request that has one. -/
def Request.mapFilter (change : Option String → Option String) : Request → Request
  | count filter => count (change filter)
  | groupBy path filter => groupBy path (change filter)
  | stats path filter => stats path (change filter)
  | distribution path filter buckets => distribution path (change filter) buckets
  | query options => query { options with filter := change options.filter }
  | aggregate options functions =>
    aggregate { options with filter := change options.filter } functions
  | sample options => sample { options with filter := change options.filter }
  | join right options => join right { options with filter := change options.filter }
  | request => request

/-- Answers a request. Samples that fix no seed draw by the one that is given here. -/
def Engine.answer (engine : Engine) (seed : UInt64) (source : Source) :
    Request → Except Error Report
  | .count filter => (engine.count source filter).map .count
  | .groupBy path filter => (engine.groupBy source path filter).map .groups
  | .stats path filter => (engine.stats source path filter).map .stats
  | .distribution path filter buckets =>
    (engine.distribution source path filter buckets).map .histogram
  | .query options => (engine.query source options).map .page
  | .aggregate options functions =>
    (engine.aggregate source options).map fun result => .aggregates result functions
  | .sample options =>
    (engine.sample (.ofSeed (options.seed.getD seed)) source options).map .sample
  | .schema options => (engine.schema source.path options).map .shape
  | .relationships right options => (engine.relationships source right options).map .relationships
  | .join right options => (engine.join source right options).map .join

end EntityDump
