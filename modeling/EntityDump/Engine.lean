import EntityDump.Elements
import EntityDump.Filter.Set
/-!
# The engine

An engine asks the dumps of a directory under some settings. Every question is one fold over the elements of
a source, or two; it is answered only if the whole document is read without a fault.
-/

namespace EntityDump

/-- Settings, and the files that can be asked. -/
structure Engine where
  config : EngineConfig := {}
  directory : Directory

namespace Engine

/-- An engine whose settings are in range. -/
def validated (config : EngineConfig) (directory : Directory) : Except Error Engine :=
  match config.validate with
  | .ok () => .ok ⟨config, directory⟩
  | .error e => .error (.config e)

/-- Folds the elements of a source. -/
def scan {σ : Type} (engine : Engine) (source : Source) (step : σ → Json → σ) (init : σ) :
    Except Error σ :=
  source.fold engine.config.stream engine.directory (fun state _ element => step state element) init

/-- Reads a filter on elements; no text lets everything pass. -/
def filter (engine : Engine) (expression : Option String) : Except Error FilterSet :=
  FilterSet.parse engine.config.query.strictFilters false expression.toList

/-- Reads a filter on pairs of elements. -/
def pairFilter (engine : Engine) (expression : Option String) : Except Error FilterSet :=
  FilterSet.parse engine.config.query.strictFilters true expression.toList

end Engine

end EntityDump
