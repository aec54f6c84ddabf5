import EntityDump.CommandLine.Matching
import EntityDump.Scan
/-!
# Commands

What a command line asks for: a request to a scan, or the names of types to look up.
-/

namespace EntityDump.CommandLine

/-- What is asked for. -/
inductive Command where
  | ask (scan : Scan) (request : Request)
  /-- Looks up types by name, and all types that a scan finds too. -/
  | lookup (names : List String) (types : Option Scan) (config : LookupConfig)

/-- A command and how its report is shown. -/
structure Invocation where
  command : Command
  format : Format

/-- The usual time limit of a lookup, in milliseconds. -/
def usualTimeoutMillis : Nat := 10000

namespace Arguments

/-- The scan of a file under the global options, with the filters of the verb. -/
def scan (a : Arguments) (file : String) : Scan :=
  let s := (Scan.file file).withSubPath ((a.text? "sub-path").getD defaultSubPath)
  let s := s.withStrictFilters (a.isSet "strict-filters")
  let s := (a.word? "chunk-size").elim s s.withChunkSize
  s.addFilters (a.texts "filter")

/-- The file whose elements are asked for. -/
def mainFile (a : Arguments) : String :=
  ((a.text? "file").orElse fun _ => a.text? "left").getD ""

/-- The path that is asked for. -/
def path (a : Arguments) : String :=
  (a.text? "path").getD ""

/-- The source on the right. -/
def rightSource (a : Arguments) : Source :=
  (a.scan a.mainFile).sibling ((a.text? "right").getD "")

/-- Which shape is asked for. -/
def shapeOptions (a : Arguments) : ShapeOptions :=
  let usual : ShapeOptions := {}
  { maxDepth := (a.word? "max-depth").getD usual.maxDepth
    maxSamples := (a.word? "max-samples").getD usual.maxSamples
    detectPatterns := !a.isSet "no-patterns" }

/-- Which sample is asked for. -/
def sampleOptions (a : Arguments) : SampleOptions :=
  let usual : SampleOptions := {}
  { count := (a.word? "count").getD usual.count
    path := a.text? "path"
    entityType := a.text? "entity-type"
    seed := (a.word? "seed").map UInt64.ofNat
    truncation :=
      ⟨(a.word? "truncate").getD usual.truncation.maxChars,
        (a.word? "depth").getD usual.truncation.maxDepth⟩ }

/-- Which page is asked for. -/
def pageOptions (a : Arguments) : PageOptions where
  select := a.texts "select"
  limit := a.word? "limit"
  offset := (a.word? "offset").getD 0

/-- Which aggregates are asked for. -/
def aggregateOptions (a : Arguments) : AggregateOptions where
  groupPath := (a.text? "group-by").getD ""
  valuePath := (a.text? "value").getD ""
  countIf := a.text? "count-if"

/-- Which join is asked for. -/
def joinOptions (a : Arguments) : JoinOptions where
  leftKey := a.text? "left-key"
  rightKey := a.text? "right-key"
  select := a.texts "select"
  limit := a.word? "limit"

/-- Which relationships are asked for. -/
def relationshipOptions (a : Arguments) : RelationshipOptions where
  minCoverage := (a.value? "min-coverage").bind Value.decimal?
  verbose := a.isSet "verbose"

/-- How a knowledge base is asked. -/
def lookupConfig (a : Arguments) : LookupConfig where
  program := (a.text? "program").getD ""
  args := a.texts "arg"
  requestTimeout := .ofMillis ((a.word? "timeout-ms").getD usualTimeoutMillis)

/-- What is asked for. -/
def command (a : Arguments) : Command :=
  let ask (request : Request) : Command := .ask (a.scan a.mainFile) request
  match a.verb with
  | .schema => ask (.schema a.shapeOptions)
  | .sample => ask (.sample a.sampleOptions)
  | .query => ask (.query a.pageOptions)
  | .count => ask (.count none)
  | .group => ask (.groupBy a.path none)
  | .stats => ask (.stats a.path none)
  | .distribution => ask (.distribution a.path none (a.word? "buckets"))
  | .aggregate => ask (.aggregate a.aggregateOptions (a.all "function" Value.function?))
  | .relationships => ask (.relationships a.rightSource a.relationshipOptions)
  | .join => ask (.join a.rightSource a.joinOptions)
  | .lookup => .lookup (a.texts "names") ((a.text? "from").map a.scan) a.lookupConfig

/-- The command with its format. -/
def invocation (a : Arguments) : Invocation :=
  ⟨a.command, ((a.value? "format").bind Value.format?).getD .text⟩

end Arguments

/-- Reads a command line. -/
def Invocation.ofList (args : List String) : Except UsageError Invocation :=
  (Arguments.ofList args).map Arguments.invocation

/-- The files that a request reads beside the one that is scanned. -/
def otherFiles : Request → List String
  | .relationships right _ => [right.path]
  | .join right _ => [right.path]
  | _ => []

/-- The files that a command reads. -/
def Command.files : Command → List String
  | ask scan request => scan.source.path :: otherFiles request
  | lookup _ types _ => types.toList.map fun scan => scan.source.path

end EntityDump.CommandLine
