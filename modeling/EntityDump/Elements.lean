import EntityDump.Json.Assembler
import EntityDump.Reading
/-!
# Elements of the target array

The target is the first array of a document, in document order, that is reached from the root by the keys
of a sub-path, through objects alone. An extractor follows the events of the document, assembles the items
of the target one by one, and lets everything behind it pass.
-/

namespace EntityDump

open Json (Event Assembler)

/-- A container that is open around the place reached, with the key under which it stands. -/
structure Ancestor where
  kind : Container
  key : Option String
  deriving DecidableEq, Repr

/-- Where an extractor stands. -/
inductive Extractor where
  /-- Before the target: the open containers, the outermost first, and the key read last. -/
  | seeking (ancestors : List Ancestor) (pendingKey : Option String)
  /-- Inside the target. -/
  | streaming (assembler : Assembler)
  /-- Behind the target. -/
  | draining

namespace Extractor

/-- Before the document. -/
def start : Extractor := .seeking [] none

/-- An array that opens under the given key, inside the given containers, is the target. -/
def isTarget (target : List String) (ancestors : List Ancestor) (key : Option String) : Bool :=
  match target with
  | [] => ancestors.isEmpty
  | _ :: _ =>
    ancestors.all (·.kind == .object) &&
      ancestors.map (·.key) ++ [key] == none :: target.map some

/-- Takes one event while seeking. -/
def seek (target : List String) (ancestors : List Ancestor) (pendingKey : Option String) :
    Event → Extractor
  | .key name => .seeking ancestors (some name)
  | .objectStart => .seeking (ancestors ++ [⟨.object, pendingKey⟩]) none
  | .arrayStart =>
    if isTarget target ancestors pendingKey then .streaming {}
    else .seeking (ancestors ++ [⟨.array, pendingKey⟩]) none
  | .objectEnd => .seeking ancestors.dropLast pendingKey
  | .arrayEnd => .seeking ancestors.dropLast pendingKey
  | .scalar _ => .seeking ancestors none

/-- The event closes the target. -/
def closesTarget (assembler : Assembler) : Event → Bool
  | .arrayEnd => assembler.isIdle
  | _ => false

/-- Takes one event and gives the item that it completes. -/
def push (target : List String) : Extractor → Event → Extractor × Option Json
  | .seeking ancestors pendingKey, event => (seek target ancestors pendingKey event, none)
  | .streaming assembler, event =>
    if closesTarget assembler event then (.draining, none)
    else
      let (assembler, item) := assembler.push event
      (.streaming assembler, item)
  | .draining, _ => (.draining, none)

end Extractor

/-- How far a source has been read. -/
structure SourceStats where
  bytes : Nat
  events : Nat
  elements : Nat
  deriving DecidableEq, Repr

/-- A state that elements are folded into, beside what finds the elements. -/
structure Extraction (σ : Type) where
  extractor : Extractor := .start
  /-- The number of elements so far. -/
  elements : Nat := 0
  state : σ

namespace Source

variable {σ : Type}

/-- Takes one event: an element that it completes goes into the state, with its index and how far the source
has been read. -/
def extractionStep (target : List String) (step : σ → Nat → Json → SourceStats → σ)
    (x : Extraction σ) (event : Event) (r : Reading) : Extraction σ :=
  match x.extractor.push target event with
  | (extractor, none) => { x with extractor := extractor }
  | (extractor, some element) =>
    let stats := ⟨r.bytesRead, r.events, x.elements + 1⟩
    ⟨extractor, x.elements + 1, step x.state x.elements element stats⟩

/-- Folds the elements of some bytes. The state is given also when the document turns out malformed, as it
was at the fault. -/
def foldBytes (s : Source) (config : StreamConfig) (bytes : List UInt8)
    (step : σ → Nat → Json → SourceStats → σ) (init : σ) : σ × SourceStats × Outcome :=
  let (x, r, outcome) :=
    Reading.foldBytes (extractionStep s.subPathKeys step) config bytes { state := init }
  (x.state, ⟨r.bytesRead, r.events, x.elements⟩, outcome)

/-- Folds the elements of a source. -/
def fold (s : Source) (config : StreamConfig) (directory : Directory) (step : σ → Nat → Json → σ)
    (init : σ) : Except Error σ :=
  (Reading.foldFile
    (extractionStep s.subPathKeys fun state index element _ => step state index element)
    config directory s.path { state := init }).map fun result => result.1.state

/-- The elements of a source. -/
def elements (s : Source) (config : StreamConfig) (directory : Directory) : Except Error (List Json) :=
  (s.fold config directory (fun acc _ element => element :: acc) []).map List.reverse

end Source

end EntityDump
