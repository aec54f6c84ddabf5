import EntityDump.Proofs.Tokenizer.Beginning
/-!
# Where faults are found

A tokenizer that was fed some bytes has used a beginning of a text and keeps the others (`IsFed.exists_hasUsed`).
As long as more bytes may come, it does with them what a tokenizer would do that had everything at hand
(`IsFed.outcome_complete`). So a fault is found at the first place where the bytes leave the grammar: what stands
before it extends to a text, and the bytes at hand do not (`IsFed.viable_prefix`).
-/

namespace EntityDump

open Json (Event)
open Json.Grammar

namespace Tokenizer

/-- A tokenizer that was fed the bytes in pieces, with any pulls in between. A pull that fails has skipped to the
token that it fails at. -/
inductive IsFed (maxTokenBytes : Nat) : Tokenizer → List UInt8 → Prop
  | start : IsFed maxTokenBytes (limited maxTokenBytes) []
  | feed {t : Tokenizer} {bytes : List UInt8} (h : IsFed maxTokenBytes t bytes) (piece : List UInt8) :
    IsFed maxTokenBytes (t.feed piece) (bytes ++ piece)
  | finish {t : Tokenizer} {bytes : List UInt8} (h : IsFed maxTokenBytes t bytes) :
    IsFed maxTokenBytes t.finish bytes
  | pull {t t' : Tokenizer} {bytes : List UInt8} {step : TokenizerStep} (h : IsFed maxTokenBytes t bytes)
    (hp : t.pull = .ok (step, t')) : IsFed maxTokenBytes t' bytes
  | fault {t : Tokenizer} {bytes : List UInt8} {e : TokenError} (h : IsFed maxTokenBytes t bytes)
    (hp : t.pull = .error e) : IsFed maxTokenBytes t.skipSeparator bytes

variable {maxTokenBytes : Nat} {t t' : Tokenizer} {bytes used piece : List UInt8} {e : TokenError}

/-! ### The bytes that were used -/

lemma hasUsed_limited (maxTokenBytes : Nat) : (limited maxTokenBytes).HasUsed [] [] :=
  ⟨rfl, rfl, .start⟩

/-- A piece that is fed comes behind the bytes at hand. -/
lemma HasUsed.feed (h : t.HasUsed used bytes) (piece : List UInt8) :
    (t.feed piece).HasUsed used (bytes ++ piece) := by
  refine ⟨?_, h.offset, h.begins⟩
  rw [← h.split, List.append_assoc]
  rfl

/-- The bytes that a tokenizer was fed are those it used, a beginning of a text, and those at hand. -/
theorem IsFed.exists_hasUsed (h : IsFed maxTokenBytes t bytes) : ∃ used, t.HasUsed used bytes := by
  induction h with
  | start => exact ⟨[], hasUsed_limited maxTokenBytes⟩
  | feed _ piece ih =>
    obtain ⟨used, h⟩ := ih
    exact ⟨used, h.feed piece⟩
  | finish _ ih =>
    obtain ⟨used, h⟩ := ih
    exact ⟨used, h.split, h.offset, h.begins⟩
  | pull _ hp ih =>
    obtain ⟨used, h⟩ := ih
    exact h.of_pull hp
  | fault _ _ ih =>
    obtain ⟨used, h⟩ := ih
    exact h.skipSeparator

/-- The bytes before the place that was reached are the ones used. -/
lemma HasUsed.take_offset (h : t.HasUsed used bytes) : bytes.take t.offset = used := by
  rw [← h.split, h.offset, List.take_left]

/-- The bytes used and those at hand are all that were fed. -/
lemma HasUsed.offset_add_buffered (h : t.HasUsed used bytes) : t.offset + t.buffered = bytes.length := by
  rw [← h.split, h.offset, List.length_append]
  rfl

/-! ### The bytes that are to come -/

/-- Whatever comes, the run goes on as if it had been at hand from the beginning. -/
theorem IsFed.outcome_complete (h : IsFed maxTokenBytes t bytes) (hended : t.ended = false) :
    ∃ events, ∀ rest,
      ((limited maxTokenBytes).complete (bytes ++ rest)).outcome = prepend events (t.complete rest).outcome := by
  induction h with
  | start => exact ⟨[], fun rest => rfl⟩
  | feed _ piece ih =>
    obtain ⟨events, hevents⟩ := ih hended
    refine ⟨events, fun rest => ?_⟩
    rw [List.append_assoc, hevents, complete_feed]
  | finish => cases hended
  | @pull t t' bytes step _ hp ih =>
    have hended : t.ended = false := (advances_of_pull hp).ended ▸ hended
    obtain ⟨events, hevents⟩ := ih hended
    cases step with
    | event e =>
      refine ⟨events ++ [e], fun rest => ?_⟩
      rw [hevents, outcome_complete_of_event hended hp, prepend_prepend]
    | needMore =>
      refine ⟨events, fun rest => ?_⟩
      rw [hevents, outcome_complete_of_needMore hended hp]
    | finished => exact absurd hp (pull_ne_finished hended)
  | @fault t bytes e _ _ ih =>
    obtain ⟨events, hevents⟩ := ih ((advances_skipSeparator t).ended ▸ hended)
    refine ⟨events, fun rest => ?_⟩
    rw [hevents]
    congr 1
    exact outcome_congr (congrArg lex (skipSeparator_complete rest t))

/-- Bytes at which a run fails before its text ends do not begin a text, unless a token is beyond the limit. -/
lemma IsFed.not_isText_of_error (h : IsFed maxTokenBytes t bytes) (hp : t.pull = .error e)
    (hended : t.ended = false) (hlimit : ∀ kind limit, e.fault ≠ .tooLong kind limit) (rest : List UInt8)
    (d : Json.Document) : ¬ IsText (bytes ++ rest) d := by
  intro htext
  obtain ⟨events, hevents⟩ := h.outcome_complete hended
  have hfail := outcome_complete_of_error hended hp (fun _ kind => hlimit kind _) rest
  have houtcome := outcome_of_isText htext maxTokenBytes
  rw [hevents, hfail] at houtcome
  cases (Prod.mk.inj houtcome).2

/-! ### Faults -/

/-- The place that was reached and the bytes at hand make up the bytes fed. A fault is found within them, behind
bytes that extend to a text; found before the end of the text, it is one however the bytes go on, unless it is
a token beyond the limit. -/
theorem IsFed.viable_prefix (h : IsFed maxTokenBytes t bytes) :
    t.offset + t.buffered = bytes.length ∧
      ∀ e, t.pull = .error e →
        e.offset ≤ bytes.length ∧ (∃ rest d, IsText (bytes.take e.offset ++ rest) d) ∧
          (t.ended = false → (∀ kind limit, e.fault ≠ .tooLong kind limit) →
            ∀ rest d, ¬ IsText (bytes ++ rest) d) := by
  obtain ⟨used, hused⟩ := h.exists_hasUsed
  refine ⟨hused.offset_add_buffered, fun e hp => ?_⟩
  obtain ⟨before, hbefore⟩ := hused.skipSeparator
  rw [offset_of_error hp]
  refine ⟨?_, ?_, h.not_isText_of_error hp⟩
  · have hsum := hbefore.offset_add_buffered
    omega
  · rw [hbefore.take_offset]
    exact hbefore.begins.exists_isText

/-- A closing bracket of the wrong kind, behind a brace. -/
theorem viable_prefix_brace_bracket :
    ∃ (t : Tokenizer) (e : TokenError), IsFed 4 t [0x7b, 0x5d] ∧ t.pull = .error e ∧ t.ended = false ∧
      e = ⟨1, .unexpected 0x5d .key⟩ ∧ (∃ rest d, IsText ([0x7b] ++ rest) d) ∧
      ∀ rest d, ¬ IsText ([0x7b, 0x5d] ++ rest) d := by
  have hopened : ((limited 4).feed [0x7b, 0x5d]).pull = .ok (.event .objectStart,
      { limited 4 with buffer := [0x5d], offset := 1, stack := [.object], expect := .firstKey }) := rfl
  have hfed := (IsFed.start.feed [0x7b, 0x5d]).pull hopened
  obtain ⟨-, hfaults⟩ := IsFed.viable_prefix hfed
  obtain ⟨-, hprefix, hnever⟩ := hfaults _ rfl
  exact ⟨_, _, hfed, rfl, rfl, rfl, hprefix, hnever rfl nofun⟩

end Tokenizer

end EntityDump
