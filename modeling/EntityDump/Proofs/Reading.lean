import EntityDump.Elements
import EntityDump.Proofs.Json.Ordered
import EntityDump.Proofs.Tokenizer.Outcome
/-!
# What a fold over a file keeps

Every event that a tokenizer gives could come from a text (`textual_of_pull`). So what each event of that
sort keeps, a fold over a file keeps as a whole, in whatever pieces the file is read (`foldFile_keeps`). The
elements of a source are in order for this reason (`Source.ordered_of_elements`).
-/

namespace EntityDump

open Json (Assembler Event Scalar)

/-! ### Events from a text -/

namespace Tokenizer

/-- The event of a token could come from a text. -/
lemma Takes.textual {stack stack' : List Container} {expect expect' : Expect} {token : List UInt8} {e : Event}
    (h : Takes stack expect token e stack' expect') : e.Textual := by
  rcases h with ⟨kind, -⟩ | @⟨_, s, -, -⟩ | - | ⟨kind, -⟩
  · cases kind <;> trivial
  · exact ⟨s, rfl⟩
  · trivial
  · cases kind <;> trivial

/-- Every event that a tokenizer gives could come from a text. -/
theorem textual_of_pull {t t' : Tokenizer} {e : Event} (h : t.pull = .ok (.event e, t')) : e.Textual := by
  obtain ⟨token, -, -, htakes, -⟩ := token_of_event h
  exact htakes.textual

end Tokenizer

/-! ### Folds -/

section Keeps

variable {σ : Type} {P : σ → Prop}

/-- A fold keeps what each event keeps. -/
lemma Tokenizer.fold_keeps {step : σ → Event → Tokenizer → σ}
    (hstep : ∀ s e t, e.Textual → P s → P (step s e t)) (t : Tokenizer) {s : σ} (h : P s) :
    P (t.fold step s).1 := by
  induction t using pull_induction generalizing s with
  | event t e t' hp ih =>
    rw [fold_of_event _ hp]
    exact ih (hstep s e t' (textual_of_pull hp) h)
  | stop t hstop =>
    obtain ⟨t', stop, hs⟩ := fold_of_stop hstop
    rwa [hs]

namespace Reading

variable {step : σ → Event → Reading → σ}

/-- What every textual event keeps is kept by a fold. -/
lemma fold_keeps (hstep : ∀ s e r, e.Textual → P s → P (step s e r)) (r : Reading) {s : σ} (h : P s) :
    P (fold step r s).1 :=
  Tokenizer.fold_keeps (P := fun state : σ × Nat => P state.1)
    (fun state e _ he hstate => hstep state.1 e _ he hstate) r.tokenizer h

/-- What every textual event keeps is kept over all pieces. -/
lemma foldPieces_keeps (hstep : ∀ s e r, e.Textual → P s → P (step s e r)) (pieces : List (List UInt8))
    (r : Reading) {s : σ} (h : P s) : P (foldPieces step pieces r s).1 := by
  induction pieces generalizing r s with
  | nil =>
    have hfold := fold_keeps hstep r.finish h
    rw [foldPieces]
    split <;> simp_all
  | cons piece pieces ih =>
    have hfold := fold_keeps hstep (r.feed piece) h
    rw [foldPieces]
    split
    · simp_all
    · next s' r' _ _ heq =>
      rw [heq] at hfold
      exact ih r' hfold

/-- A fold over a file keeps what each event keeps. -/
theorem foldFile_keeps (hstep : ∀ s e r, e.Textual → P s → P (step s e r)) {config : StreamConfig}
    {directory : Directory} {path : String} {s : σ} {result : σ × Reading}
    (hfold : foldFile step config directory path s = .ok result) (h : P s) : P result.1 := by
  unfold foldFile at hfold
  split at hfold
  · cases hfold
  · next bytes _ =>
    have hpieces := foldPieces_keeps hstep (chunks config.chunkSize bytes) (start config) h
    split at hfold
    · next heq =>
      obtain rfl := Except.ok.inj hfold
      rw [foldBytes] at heq
      rwa [heq] at hpieces
    · cases hfold

end Reading

end Keeps

/-! ### Elements -/

/-- What an extractor assembles is in order. -/
def Extractor.Ordered : Extractor → Prop
  | .streaming assembler => assembler.Ordered
  | _ => True

/-- An event from a text keeps what is assembled in order, and the element that it completes is in order. -/
lemma Extractor.ordered_push {x : Extractor} (h : x.Ordered) {event : Event} (hevent : event.Textual)
    (target : List String) :
    (x.push target event).1.Ordered ∧ ∀ element ∈ (x.push target event).2, element.Ordered := by
  cases x with
  | seeking ancestors key =>
    refine ⟨?_, by simp [push]⟩
    cases event with
    | arrayStart =>
      simp only [push, seek]
      split
      · exact fun frame hframe => by simp at hframe
      · trivial
    | _ => trivial
  | streaming assembler =>
    rw [push]
    split
    · exact ⟨trivial, by simp⟩
    · exact Assembler.ordered_push h hevent
  | draining => exact ⟨trivial, by simp [push]⟩

/-- The elements of a source are in order. -/
theorem Source.ordered_of_elements {s : Source} {config : StreamConfig} {directory : Directory}
    {elements : List Json} (h : s.elements config directory = .ok elements) :
    ∀ element ∈ elements, element.Ordered := by
  -- Every event keeps the value that is assembled ordered, and so the elements so far.
  have hstep : ∀ (x : Extraction (List Json)) (event : Event) (r : Reading), event.Textual →
      (x.extractor.Ordered ∧ ∀ element ∈ x.state, element.Ordered) →
      (extractionStep s.subPathKeys (fun acc _ element _ => element :: acc) x event r).extractor.Ordered ∧
        ∀ element ∈ (extractionStep s.subPathKeys (fun acc _ element _ => element :: acc) x event r).state,
          element.Ordered := by
    intro x event r hevent ⟨hextractor, hstate⟩
    obtain ⟨hextractor, hitem⟩ := x.extractor.ordered_push hextractor hevent s.subPathKeys
    unfold extractionStep
    split
    · next heq =>
      rw [heq] at hextractor
      exact ⟨hextractor, hstate⟩
    · next element heq =>
      rw [heq] at hextractor hitem
      exact ⟨hextractor, List.forall_mem_cons.2 ⟨hitem element rfl, hstate⟩⟩
  rw [Source.elements, Source.fold] at h
  cases hfold : Reading.foldFile (extractionStep s.subPathKeys fun acc _ element _ => element :: acc)
      config directory s.path { state := [] } with
  | error e =>
    rw [hfold] at h
    cases h
  | ok result =>
    obtain ⟨-, hstate⟩ := Reading.foldFile_keeps hstep hfold ⟨trivial, by simp⟩
    rw [hfold] at h
    obtain rfl := Except.ok.inj h
    exact fun element helement => hstate element (List.mem_reverse.1 helement)

end EntityDump
