import EntityDump.Request
/-!
# Scans

A scan names a source, the settings and any number of filters. A request that is put to it is answered for the
elements that pass these filters and the request's own.
-/

namespace EntityDump

/-- A source with the settings and filters under which it is asked. -/
structure Scan where
  source : Source
  config : EngineConfig := {}
  /-- The filters, none of them blank, in the order in which they were added. -/
  filters : List String := []

namespace Scan

/-- A scan of the usual array of a file. -/
def file (path : String) : Scan := { source := { path := path } }

/-- A scan of the root array of a file. -/
def rootArray (path : String) : Scan := { source := .rootArray path }

/-- Scans another array of the document. -/
def withSubPath (s : Scan) (subPath : String) : Scan :=
  { s with source := { s.source with subPath := subPath } }

/-- Reads this many bytes at a time. -/
def withChunkSize (s : Scan) (chunkSize : Nat) : Scan :=
  { s with config := { s.config with stream := { s.config.stream with chunkSize := chunkSize } } }

/-- Refuses filters that cannot be read, or leaves them out. -/
def withStrictFilters (s : Scan) (strict : Bool) : Scan :=
  { s with config := { s.config with query := { s.config.query with strictFilters := strict } } }

/-- Adds a filter; a blank one counts for nothing. -/
def addFilter (s : Scan) (expression : String) : Scan :=
  if Text.isBlankString expression then s else { s with filters := s.filters ++ [expression] }

/-- Adds filters in order. -/
def addFilters (s : Scan) (expressions : List String) : Scan :=
  expressions.foldl addFilter s

/-- The same array of another file. -/
def sibling (s : Scan) (path : String) : Source := ⟨path, s.source.subPath⟩

/-- What is written between two filters. -/
def conjunction : String :=
  " " ++ String.ofList FilterSet.separator ++ " "

/-- One expression for the filters of the scan and another one behind them. -/
def filterWith (s : Scan) (extra : Option String) : Option String :=
  match s.filters ++ (extra.filter fun e => !Text.isBlankString e).toList with
  | [] => none
  | parts => some (conjunction.intercalate parts)

/-- Answers a request for the elements that pass the filters of the scan. -/
def run (s : Scan) (directory : Directory) (seed : UInt64) (request : Request) :
    Except Error Report := do
  let engine ← Engine.validated s.config directory
  engine.answer seed s.source (request.mapFilter s.filterWith)

end Scan

end EntityDump
