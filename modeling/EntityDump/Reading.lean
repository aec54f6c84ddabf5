import EntityDump.Error
import EntityDump.Source
import EntityDump.Tokenizer.Run
/-!
# Reading a file

A file is read in chunks of a fixed size, a chunk at a time and only when the tokenizer has no event left,
and its events are folded into a state. `flatten_chunks` says that the chunks make up the file.
-/

namespace EntityDump

open Json (Event)

/-- The pieces of the given size, the last one being what is left. Size zero counts as one. -/
def chunks (size : Nat) : List UInt8 → List (List UInt8)
  | [] => []
  | b :: rest =>
    (b :: rest).take (max size 1) :: chunks size ((b :: rest).drop (max size 1))
termination_by bytes => bytes.length
decreasing_by
  simp only [List.length_drop, List.length_cons]
  omega

/-- The chunks make up the bytes. -/
theorem flatten_chunks (size : Nat) (bytes : List UInt8) : (chunks size bytes).flatten = bytes := by
  fun_induction chunks size bytes with
  | case1 => rfl
  | case2 b rest ih => rw [List.flatten_cons, ih, List.take_append_drop]

/-- How far a file has been read. -/
structure Reading where
  tokenizer : Tokenizer
  /-- The number of bytes read. -/
  bytesRead : Nat := 0
  /-- The number of events. -/
  events : Nat := 0

/-- How reading ended: at the end of the document, or with a fault. -/
abbrev Outcome := Except TokenError Unit

namespace Reading

/-- A reading at the beginning of a file. -/
def start (config : StreamConfig) : Reading where
  tokenizer := { maxTokenBytes := config.maxTokenBytes }

variable {σ : Type} (step : σ → Event → Reading → σ)

/-- Folds the events that the bytes at hand give. The step also sees how far the file has been read. -/
def fold (r : Reading) (s : σ) : σ × Reading × Tokenizer.Stop :=
  let ((s, events), t, stop) := r.tokenizer.fold
    (fun (state : σ × Nat) event t =>
      (step state.1 event { r with tokenizer := t, events := state.2 + 1 }, state.2 + 1))
    (s, r.events)
  (s, { r with tokenizer := t, events := events }, stop)

/-- Reads another piece. -/
def feed (r : Reading) (piece : List UInt8) : Reading :=
  { r with tokenizer := r.tokenizer.feed piece, bytesRead := r.bytesRead + piece.length }

/-- Finds no further piece. -/
def finish (r : Reading) : Reading :=
  { r with tokenizer := r.tokenizer.finish }

/-- Folds the events of a document that comes in pieces. -/
def foldPieces : List (List UInt8) → Reading → σ → σ × Reading × Outcome
  | [], r, s =>
    match fold step r.finish s with
    | (s, r, .error e) => (s, r, .error e)
    | (s, r, _) => (s, r, .ok ())
  | piece :: pieces, r, s =>
    match fold step (r.feed piece) s with
    | (s, r, .error e) => (s, r, .error e)
    | (s, r, _) => foldPieces pieces r s

/-- Folds the events of a file's bytes. -/
def foldBytes (config : StreamConfig) (bytes : List UInt8) (s : σ) : σ × Reading × Outcome :=
  foldPieces step (chunks config.chunkSize bytes) (start config) s

/-- Folds the events of a file. -/
def foldFile (config : StreamConfig) (directory : Directory) (path : String) (s : σ) :
    Except Error (σ × Reading) :=
  match directory.open? path with
  | none => .error (.missingFile path)
  | some bytes =>
    match foldBytes step config bytes s with
    | (s, r, .ok ()) => .ok (s, r)
    | (_, _, .error e) => .error (.malformed path e)

end Reading

end EntityDump
