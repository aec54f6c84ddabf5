import EntityDump.Engine
import EntityDump.Pattern
import EntityDump.Sample.Reservoir
import EntityDump.Sample.Truncation
/-!
# Samples

Some of the elements that match, drawn by chance, in order of the document and truncated for display. An
element matches if it has the entity type and passes the filter that are asked for; with a path the sample is
of what the path selects, and elements where it selects nothing do not match.
-/

namespace EntityDump

/-- Which sample is asked for. -/
structure SampleOptions where
  /-- The most items. -/
  count : Nat := 5
  /-- What is taken of an element, if not all of it. -/
  path : Option String := none
  /-- The type that entities must have. -/
  entityType : Option String := none
  filter : Option String := none
  /-- What fixes the draws. -/
  seed : Option UInt64 := none
  truncation : Truncation := {}
  deriving DecidableEq, Repr

/-- An item of a sample. -/
structure SampledElement where
  /-- The position of the element in the source. -/
  index : Nat
  value : Json

/-- The answer to a question for a sample. -/
structure SampleResult where
  /-- The items in order of the document. -/
  items : List SampledElement
  /-- All elements. -/
  totalScanned : Nat
  /-- The elements that match. -/
  matchedCount : Nat
  /-- Some filter text was left out. -/
  filterIgnored : Bool

/-! ### Matching -/

/-- The name of the entity's type as its payload gives it: what stands before the first comma. -/
def payloadType? (element : Json) : Option (List Char) := do
  let payload ← element.field? "payload"
  let type ← payload.field? "$type"
  let name ← type.string?
  return Text.trim (name.toList.takeWhile (· != ','))

/-- What stands behind the last dot. -/
def lastDotted (s : List Char) : List Char :=
  (s.reverse.takeWhile (· != '.')).reverse

/-- The element has the type: its id begins with the name and a colon, or its payload names the type in full
or by the part behind the last dot. -/
def matchesEntityType (element : Json) (wanted : String) : Bool :=
  let id? := (element.field? "entityId").bind Json.string?
  id?.bind entityTypeName? == some wanted ||
    (payloadType? element).any fun type =>
      type == wanted.toList || lastDotted type == wanted.toList

/-- What a sample may hold of an element, if the element matches. -/
def sampleValue? (path : Option Path) (entityType : Option String) (filter : FilterSet)
    (element : Json) : Option Json :=
  if entityType.all (matchesEntityType element) && filter.accepts element then
    match path with
    | none => some element
    | some path =>
      match path.select element with
      | [] => none
      | value :: rest => some (if path.hasWildcard then .array (value :: rest) else value)
  else none

/-! ### Drawing -/

/-- A sample that is being drawn. -/
structure SampleState where
  reservoir : Reservoir SampledElement
  scanned : Nat := 0

/-- Takes one element. -/
def SampleState.step (draws : Draws) (value? : Json → Option Json) (s : SampleState) (index : Nat)
    (element : Json) : SampleState where
  reservoir :=
    match value? element with
    | some value => s.reservoir.offer draws ⟨index, value⟩
    | none => s.reservoir
  scanned := s.scanned + 1

/-- Draws a sample. -/
def Engine.sample (engine : Engine) (draws : Draws) (source : Source) (options : SampleOptions) :
    Except Error SampleResult := do
  let path ← options.path.mapM Path.parse
  let filter ← engine.filter options.filter
  let s ← source.fold engine.config.stream engine.directory
    (SampleState.step draws (sampleValue? path options.entityType filter))
    ({ reservoir := { capacity := options.count } } : SampleState)
  let drawn := s.reservoir.items.toList.mergeSort fun a b => a.index ≤ b.index
  let items := drawn.map fun item => { item with value := options.truncation.apply item.value }
  return ⟨items, s.scanned, s.reservoir.seen, filter.filterIgnored⟩

end EntityDump
