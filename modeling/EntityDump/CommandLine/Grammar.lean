import EntityDump.Report.Basic
/-!
# The grammar of the command line

The verbs, what each of them takes, and what kind of value each argument has. Options and switches stand
behind two dashes under their names, or behind one dash under a letter; everything else is positional. The
global options may stand before or behind the verb.
-/

namespace EntityDump.CommandLine

/-- Why a command line is not run. -/
inductive UsageError where
  /-- Help was asked for. -/
  | help
  /-- The version was asked for. -/
  | version
  /-- Nothing was given, so that help is shown. -/
  | nothingGiven
  | unknownVerb
  | missingVerb
  | unknownArgument
  /-- A value is missing, empty, or none of the values there are. -/
  | invalidValue
  /-- A value that cannot be read. -/
  | malformedValue
  /-- A switch with a value. -/
  | unexpectedValue
  /-- An argument that may be given once is given again. -/
  | repeatedArgument
  | missingArgument
  deriving DecidableEq, Repr

/-- The exit status: asking for help or the version is no failure. -/
def UsageError.exitCode : UsageError → Nat
  | help => 0
  | version => 0
  | _ => 2

/-! ### Values -/

/-- What a value can be. -/
inductive ValueKind where
  | text
  /-- The location of a file. -/
  | file
  /-- A number below `2^64`. -/
  | word
  | decimal
  | format
  | function
  deriving DecidableEq, Repr

/-- A value that was read. -/
inductive Value where
  /-- The value of a switch that is given. -/
  | set
  | text (s : String)
  | word (n : Nat)
  | decimal (x : Float)
  | format (f : Format)
  | function (f : AggregateFunction)

/-- Reads a value of a kind. -/
def ValueKind.read (kind : ValueKind) (s : String) : Except UsageError Value :=
  match kind with
  | text => .ok (.text s)
  | file => if s.isEmpty then .error .invalidValue else .ok (.text s)
  | word =>
    match Numeric.readWord? s.toList with
    | some n => .ok (.word n)
    | none => .error .malformedValue
  | decimal =>
    match Numeric.readFloat? s.toList with
    | some x => .ok (.decimal x)
    | none => .error .malformedValue
  | format =>
    match [Format.text, Format.json].find? fun f => f.name == s with
    | some f => .ok (.format f)
    | none => .error .invalidValue
  | function =>
    match AggregateFunction.parse s with
    | .ok f => .ok (.function f)
    | .error _ => .error .malformedValue

/-! ### Arguments -/

/-- An option or a switch. -/
structure Flag where
  name : String
  short : Option Char := none
  /-- The kind of its value; a switch has none. -/
  takes : Option ValueKind := none
  repeatable : Bool := false
  required : Bool := false
  /-- What follows is its value, whatever it looks like. -/
  takesAnything : Bool := false
  deriving DecidableEq, Repr

/-- A positional argument. One that is repeatable takes all that follow, and may have none. -/
structure Positional where
  name : String
  kind : ValueKind
  repeatable : Bool := false
  deriving DecidableEq, Repr

namespace Flag

/-- A switch. -/
def switch (name : String) (short : Option Char := none) : Flag :=
  { name := name, short := short }

/-- An option with a value of a kind. -/
def option (name : String) (kind : ValueKind) (short : Option Char := none) : Flag :=
  { name := name, short := short, takes := some kind }

/-- An option that has to be given. -/
def needed (name : String) : Flag :=
  { name := name, takes := some .text, required := true }

/-- An option that may be given any number of times. -/
def many (name : String) (kind : ValueKind) (short : Option Char := none) : Flag :=
  { name := name, short := short, takes := some kind, repeatable := true }

end Flag

/-! ### Verbs -/

/-- What can be asked. -/
inductive Verb where
  | schema
  | sample
  | query
  | count
  | group
  | stats
  | distribution
  | aggregate
  | relationships
  | join
  | lookup
  deriving DecidableEq, Repr

namespace Verb

/-- All verbs, in the order in which they are listed. -/
def all : List Verb :=
  [schema, sample, query, count, group, stats, distribution, aggregate, relationships, join, lookup]

/-- The name of a verb. -/
def name : Verb → String
  | schema => "schema"
  | sample => "sample"
  | query => "query"
  | count => "count"
  | group => "group"
  | stats => "stats"
  | distribution => "distribution"
  | aggregate => "aggregate"
  | relationships => "relationships"
  | join => "join"
  | lookup => "lookup"

/-- The verb of a name. -/
def ofName? (s : String) : Option Verb :=
  all.find? fun verb => verb.name == s

/-- What a verb does, in a few words. -/
def summary : Verb → String
  | schema => "Infer the merged schema of a whole document"
  | sample => "Reservoir-sample elements"
  | query => "Select a page of matching elements"
  | count => "Count matching elements"
  | group => "Count elements per distinct value of a path"
  | stats => "Count, sum, average, minimum and maximum of a numeric path"
  | distribution => "Histogram of a numeric path"
  | aggregate => "Numeric aggregates per group"
  | relationships => "Detect id relationships between two files"
  | join => "Hash-join two files on equal key values"
  | lookup => "Resolve type names through an external knowledge-base process"

/-- The positional arguments of a verb. -/
def positionals : Verb → List Positional
  | group => [⟨"file", .file, false⟩, ⟨"path", .text, false⟩]
  | stats => [⟨"file", .file, false⟩, ⟨"path", .text, false⟩]
  | distribution => [⟨"file", .file, false⟩, ⟨"path", .text, false⟩]
  | relationships => [⟨"left", .file, false⟩, ⟨"right", .file, false⟩]
  | join => [⟨"left", .file, false⟩, ⟨"right", .file, false⟩]
  | lookup => [⟨"names", .text, true⟩]
  | _ => [⟨"file", .file, false⟩]

/-- The filters of a verb. -/
def filterFlag : Flag := .many "filter" .text (some 'f')

/-- The options and switches of a verb. -/
def flags : Verb → List Flag
  | schema => [.option "max-depth" .word, .option "max-samples" .word, .switch "no-patterns"]
  | sample =>
    [.option "count" .word (some 'n'), .option "path" .text, .option "entity-type" .text,
      .option "seed" .word, .option "truncate" .word, .option "depth" .word, filterFlag]
  | query =>
    [.many "select" .text (some 's'), .option "limit" .word (some 'l'), .option "offset" .word,
      filterFlag]
  | count => [filterFlag]
  | group => [filterFlag]
  | stats => [filterFlag]
  | distribution => [.option "buckets" .word (some 'b'), filterFlag]
  | aggregate =>
    [.needed "group-by", .needed "value", .many "function" .function, .option "count-if" .text,
      filterFlag]
  | relationships => [.option "min-coverage" .decimal, .switch "verbose" (some 'v')]
  | join =>
    [.option "left-key" .text, .option "right-key" .text, .many "select" .text (some 's'),
      .option "limit" .word (some 'l'), filterFlag]
  | lookup =>
    [.option "from" .file, .needed "program",
      { Flag.many "arg" .text with takesAnything := true }, .option "timeout-ms" .word]

end Verb

/-- The options and switches that may stand before or behind the verb. -/
def globalFlags : List Flag :=
  [.option "sub-path" .text, .option "format" .format, .switch "strict-filters",
    .option "chunk-size" .word]

end EntityDump.CommandLine
