import EntityDump.Duration
import EntityDump.Numeric.Layout
import EntityDump.Text.Blank
/-!
# Settings

The settings of an engine and of a lookup, their usual values, and which settings are refused and why.
-/

namespace EntityDump

open Numeric

/-- Why a setting is refused. -/
inductive ConfigError where
  /-- A time limit that must not be zero. -/
  | zeroTimeout (name : String)
  /-- A time limit beyond the greatest allowed. -/
  | longTimeout (name : String) (timeout : Duration)
  /-- A number of bytes out of range. -/
  | bufferSize (name : String) (size : Nat)
  /-- A percentage out of range. -/
  | percentage (name : String) (value : Float)
  /-- A number that must not be zero. -/
  | notPositive (name : String)
  /-- A lookup without a program. -/
  | noProgram
  /-- Less room for a token than for a chunk. -/
  | tokenBelowChunk
  /-- A relaxed threshold above the strict one. -/
  | relaxedAboveMin (relaxed min : Float)

/-- The longest time limit. -/
def maxTimeout : Duration := .ofSeconds 3600

/-- The most bytes a buffer may have. -/
def maxBufferBytes : Nat := Nat.pow 2 30

/-- The wording of a refusal. -/
def ConfigError.message : ConfigError → String
  | zeroTimeout name => s!"invalid timeout: {name} must be non-zero"
  | longTimeout name timeout =>
    s!"invalid timeout: {name} of {timeout.text} exceeds {maxTimeout.text}"
  | bufferSize name size =>
    s!"invalid buffer size: {name} must be between 1 and {maxBufferBytes} bytes, got {size}"
  | percentage name value =>
    s!"invalid setting: {name} must be between 0 and 100, got {floatText plainLayout value}"
  | notPositive name => s!"invalid setting: {name} must be greater than zero"
  | noProgram => "invalid setting: lookup program cannot be empty"
  | tokenBelowChunk => "conflicting settings: max_token_bytes must be at least chunk_size"
  | relaxedAboveMin relaxed min =>
    "conflicting settings: relaxed_coverage (" ++ floatText plainLayout relaxed ++
      ") cannot exceed min_coverage (" ++ floatText plainLayout min ++ ")"

namespace Config

/-! ### Single checks -/

/-- A time limit is neither zero nor longer than an hour. -/
def checkTimeout (timeout : Duration) (name : String) : Except ConfigError Unit :=
  if timeout.micros = 0 then .error (.zeroTimeout name)
  else if timeout.micros > maxTimeout.micros then .error (.longTimeout name timeout)
  else .ok ()

/-- A buffer has at least one byte and not too many. -/
def checkBufferSize (size : Nat) (name : String) : Except ConfigError Unit :=
  if size = 0 ∨ size > maxBufferBytes then .error (.bufferSize name size) else .ok ()

/-- A percentage lies between 0 and 100. -/
def checkPercentage (value : Float) (name : String) : Except ConfigError Unit :=
  if 0.0 ≤ value && value ≤ 100.0 then .ok () else .error (.percentage name value)

/-- A number is not zero. -/
def checkPositive (value : Nat) (name : String) : Except ConfigError Unit :=
  if value = 0 then .error (.notPositive name) else .ok ()

end Config

/-! ### Settings of an engine -/

/-- How files are read. -/
structure StreamConfig where
  /-- Bytes read at a time. -/
  chunkSize : Nat := 64 * 1024
  /-- The most bytes of an unfinished token. -/
  maxTokenBytes : Nat := 64 * 1024 * 1024
  deriving DecidableEq, Repr

/-- Small buffers, for reading with little memory. -/
def StreamConfig.lowMemory : StreamConfig := ⟨4096, 4 * 1024 * 1024⟩

/-- The buffers are in range and a token may be as long as a chunk. -/
def StreamConfig.validate (c : StreamConfig) : Except ConfigError Unit := do
  Config.checkBufferSize c.chunkSize "chunk_size"
  Config.checkBufferSize c.maxTokenBytes "max_token_bytes"
  if c.maxTokenBytes < c.chunkSize then throw .tokenBelowChunk

/-- How elements are asked for. -/
structure QueryConfig where
  /-- The most items of an answer that sets no limit of its own. -/
  defaultLimit : Nat := 100
  /-- Refuse filters that cannot be read, rather than leave them out. -/
  strictFilters : Bool := false
  /-- The number of buckets of a histogram that sets none of its own. -/
  distributionBuckets : Nat := 10
  deriving DecidableEq, Repr

/-- A histogram has buckets. -/
def QueryConfig.validate (c : QueryConfig) : Except ConfigError Unit :=
  Config.checkPositive c.distributionBuckets "distribution_buckets"

/-- How relationships between dumps are found. -/
structure InferenceConfig where
  /-- The least coverage, in percent, of a relationship. -/
  minCoverage : Float := 30.0
  /-- The least coverage of a pair of join keys when none reaches `minCoverage`. -/
  relaxedCoverage : Float := 10.0
  /-- The most examples shown of an id field. -/
  maxExamples : Nat := 3

/-- The thresholds are percentages, the relaxed one not above the other. -/
def InferenceConfig.validate (c : InferenceConfig) : Except ConfigError Unit := do
  Config.checkPercentage c.minCoverage "min_coverage"
  Config.checkPercentage c.relaxedCoverage "relaxed_coverage"
  if c.relaxedCoverage > c.minCoverage then
    throw (.relaxedAboveMin c.relaxedCoverage c.minCoverage)

/-- The settings of an engine. -/
structure EngineConfig where
  stream : StreamConfig := {}
  query : QueryConfig := {}
  inference : InferenceConfig := {}

/-- All settings are in range; the first refusal counts. -/
def EngineConfig.validate (c : EngineConfig) : Except ConfigError Unit := do
  c.stream.validate
  c.query.validate
  c.inference.validate

/-! ### Settings of a lookup -/

/-- How a knowledge base is asked. -/
structure LookupConfig where
  /-- The program that answers. -/
  program : String
  /-- Its arguments. -/
  args : List String := []
  /-- How long an answer may take. -/
  requestTimeout : Duration := .ofSeconds 10
  deriving DecidableEq, Repr

/-- There is a program, and the time limit is in range. -/
def LookupConfig.validate (c : LookupConfig) : Except ConfigError Unit :=
  if Text.isBlankString c.program then .error .noProgram
  else Config.checkTimeout c.requestTimeout "request_timeout"

end EntityDump
