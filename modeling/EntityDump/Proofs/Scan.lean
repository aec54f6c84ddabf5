import EntityDump.Engine
import EntityDump.Proofs.Elements
/-!
# Scans as folds over the list of elements

A fold over a file can be followed by a map of its states, step by step (`Tokenizer.fold_map` and, for
each layer above it, the lemma of the same name). Since the list of the elements is such a fold itself,
every fold over a source is one over the list of its elements, each with its index, and fails where there is
no such list: `Source.fold_eq_map_elements`, and `scan_eq_map_elements` where the index is not looked at.
-/

namespace EntityDump

open Json (Event)

/-- What is answered by two steps is answered by each of them. -/
lemma Engine.exists_of_bind_eq_ok {ε α β : Type} {first : Except ε α} {next : α → Except ε β} {b : β}
    (h : first >>= next = .ok b) : ∃ a, first = .ok a ∧ next a = .ok b := by
  cases first with
  | error e => cases h
  | ok a => exact ⟨a, rfl, h⟩

section Maps

variable {σ τ : Type} (f : τ → σ)

/-- A fold over the bytes at hand, followed by a map of its states. -/
lemma Tokenizer.fold_map (step : τ → Event → Tokenizer → τ) (step' : σ → Event → Tokenizer → σ)
    (h : ∀ s e t, f (step s e t) = step' (f s) e t) (t : Tokenizer) (s : τ) :
    t.fold step' (f s) = (f (t.fold step s).1, (t.fold step s).2) := by
  induction t using pull_induction generalizing s with
  | event t e t' hp ih => rw [fold_of_event _ hp, fold_of_event _ hp, ← ih, h]
  | stop t hstop =>
    obtain ⟨t', stop, hs⟩ := fold_of_stop hstop
    rw [hs, hs]

namespace Reading

variable {step : τ → Event → Reading → τ} {step' : σ → Event → Reading → σ}

/-- A fold over the bytes at hand, followed by a map of its states. -/
lemma fold_map (h : ∀ s e r, f (step s e r) = step' (f s) e r) (r : Reading) (s : τ) :
    fold step' r (f s) = (f (fold step r s).1, (fold step r s).2) := by
  have hfold := Tokenizer.fold_map (fun state : τ × Nat => (f state.1, state.2))
    (fun state event t =>
      (step state.1 event { r with tokenizer := t, events := state.2 + 1 }, state.2 + 1))
    (fun state event t =>
      (step' state.1 event { r with tokenizer := t, events := state.2 + 1 }, state.2 + 1))
    (fun s e t => by simp only [h]) r.tokenizer (s, r.events)
  unfold fold
  rw [hfold]

/-- A fold over pieces, followed by a map of its states. -/
lemma foldPieces_map (h : ∀ s e r, f (step s e r) = step' (f s) e r) (pieces : List (List UInt8))
    (r : Reading) (s : τ) :
    foldPieces step' pieces r (f s) =
      (f (foldPieces step pieces r s).1, (foldPieces step pieces r s).2) := by
  induction pieces generalizing r s with
  | nil =>
    rw [foldPieces, foldPieces, fold_map f h]
    rcases fold step r.finish s with ⟨s', r', _ | _ | _⟩ <;> rfl
  | cons piece pieces ih =>
    rw [foldPieces, foldPieces, fold_map f h]
    rcases fold step (r.feed piece) s with ⟨s', r', _ | _ | _⟩
    · exact ih r' s'
    · exact ih r' s'
    · rfl

/-- A fold over a file, followed by a map of its states. -/
lemma foldFile_map (h : ∀ s e r, f (step s e r) = step' (f s) e r) (config : StreamConfig)
    (directory : Directory) (path : String) (s : τ) :
    foldFile step' config directory path (f s) =
      (foldFile step config directory path s).map fun result => (f result.1, result.2) := by
  unfold foldFile
  cases directory.open? path with
  | none => rfl
  | some bytes =>
    dsimp only
    rw [foldBytes, foldBytes, foldPieces_map f h]
    rcases foldPieces step (chunks config.chunkSize bytes) (start config) s with ⟨s', r', _ | _⟩ <;> rfl

end Reading

end Maps

/-- A fold over a source folds the list of its elements, each with its index; without such a list it fails. -/
theorem Source.fold_eq_map_elements {σ : Type} (source : Source) (config : StreamConfig)
    (directory : Directory) (step : σ → Nat → Json → σ) (init : σ) :
    source.fold config directory step init =
      (source.elements config directory).map fun elements => foldIndexed step elements 0 init := by
  -- The elements so far, the last one first, tell how many there are and what they fold to.
  let folded (x : Extraction (List Json)) : Extraction σ :=
    ⟨x.extractor, x.state.length, foldIndexed step x.state.reverse 0 init⟩
  have hstep : ∀ (x : Extraction (List Json)) (event : Event) (r : Reading),
      folded (extractionStep source.subPathKeys (fun acc _ element _ => element :: acc) x event r) =
        extractionStep source.subPathKeys (fun state index element _ => step state index element)
          (folded x) event r := by
    intro x event r
    unfold extractionStep
    dsimp only [folded]
    rcases x.extractor.push source.subPathKeys event with ⟨extractor, _ | element⟩
    · rfl
    · simp [foldIndexed, List.zipIdx_append]
  have hfold := Reading.foldFile_map folded hstep config directory source.path { state := [] }
  have hinit : folded { state := [] } = { state := init } := rfl
  rw [hinit] at hfold
  unfold Source.elements Source.fold
  rw [hfold]
  cases Reading.foldFile (extractionStep source.subPathKeys fun acc _ element _ => element :: acc) config
    directory source.path { state := [] } <;> rfl

/-- A scan of a source folds the list of its elements; without such a list it fails. -/
theorem scan_eq_map_elements {σ : Type} (engine : Engine) (source : Source) (step : σ → Json → σ)
    (init : σ) :
    engine.scan source step init =
      (source.elements engine.config.stream engine.directory).map fun elements =>
        elements.foldl step init := by
  rw [Engine.scan, Source.fold_eq_map_elements]
  congr 1
  funext elements
  exact foldIndexed_eq_foldl step elements 0 init

end EntityDump
