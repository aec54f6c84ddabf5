import EntityDump.Tokenizer.Basic
/-!
# Running a tokenizer

Pulling at a tokenizer until it gives no more events. Every event uses at least one byte
(`length_buffer_of_event`), so a run over the bytes at hand ends.
-/

namespace EntityDump

open Json (Event)

namespace Tokenizer

/-! ### An event uses bytes -/

/-- Advancing takes its bytes from those at hand. -/
theorem length_buffer_advance (t : Tokenizer) (n : Nat) :
    (t.advance n).buffer.length = t.buffer.length - n := by
  simp [advance]

/-- Skipping blanks adds no bytes. -/
theorem length_buffer_skipBlanks_le (t : Tokenizer) :
    t.skipBlanks.buffer.length ≤ t.buffer.length := by
  simp [skipBlanks, length_buffer_advance]

/-- Skipping blanks and a separator adds no bytes. -/
theorem length_buffer_skipSeparator_le (t : Tokenizer) :
    t.skipSeparator.buffer.length ≤ t.buffer.length := by
  have h := length_buffer_skipBlanks_le t
  unfold skipSeparator
  dsimp only
  split
  · refine Nat.le_trans (length_buffer_skipBlanks_le _) ?_
    simp only [length_buffer_advance]
    omega
  · exact h

/-- A fault is no result. -/
theorem fail_ne_ok {α : Type} {t : Tokenizer} {fault : TokenFault} {a : α} :
    t.fail fault ≠ .ok a := by
  simp [fail]

/-- An unfinished token gives no event. -/
theorem incomplete_ne_event {t t' : Tokenizer} {kind : TokenKind} {e : Event} :
    t.incomplete kind ≠ .ok (.event e, t') := by
  unfold incomplete
  split
  · exact fail_ne_ok
  · split
    · exact fail_ne_ok
    · simp

/-- A scalar uses the bytes of its token. -/
theorem buffer_scalar (t : Tokenizer) (n : Nat) (value : Json) :
    (t.scalar n value).2.buffer = t.buffer.drop n := by
  simp [scalar, afterValue, advance]

/-- The event of a string uses the bytes of its token, of which the opening quote is one. -/
theorem length_buffer_of_lexString {t t' : Tokenizer} {e : Event}
    {next : String → Nat → TokenizerStep × Tokenizer} (hb : t.buffer ≠ [])
    (hn : ∀ text n, (next text n).2.buffer = t.buffer.drop n)
    (h : t.lexString next = .ok (.event e, t')) : t'.buffer.length < t.buffer.length := by
  unfold lexString at h
  split at h
  · exact absurd h incomplete_ne_event
  · next n hlen =>
    dsimp only at h
    split at h
    · next text _ =>
      have hle := Lexeme.stringLength?_le hb hlen
      have hb' := hn text n
      rw [Except.ok.inj h] at hb'
      simp only at hb'
      rw [hb', List.length_drop]
      omega
    · exact absurd h fail_ne_ok

/-- The event of a number uses a byte, as one at least belongs to it. -/
theorem length_buffer_of_lexNumber {t t' : Tokenizer} {e : Event} {b : UInt8} {rest : List UInt8}
    (hb : t.buffer = b :: rest) (hn : Lexeme.beginsNumber b = true)
    (h : t.lexNumber = .ok (.event e, t')) : t'.buffer.length < t.buffer.length := by
  have hbyte : Lexeme.isNumberByte b = true := by
    simp only [Lexeme.beginsNumber, Bool.or_eq_true] at hn
    simp only [Lexeme.isNumberByte, Bool.or_eq_true]
    rcases hn with hn | hn <;> simp [hn]
  unfold lexNumber at h
  dsimp only at h
  split at h
  · exact absurd h incomplete_ne_event
  · split at h
    · next n _ =>
      have hb' := buffer_scalar t (t.buffer.takeWhile Lexeme.isNumberByte).length (.number n)
      rw [Except.ok.inj h] at hb'
      simp only at hb'
      rw [hb', List.length_drop, hb, List.takeWhile_cons_of_pos hbyte]
      simp only [List.length_cons]
      omega
    · exact absurd h fail_ne_ok

/-- The event of a literal word uses the bytes of the word, and no word is empty. -/
theorem length_buffer_of_lexLiteral {t t' : Tokenizer} {e : Event} {word : LiteralWord}
    {value : Json} (h : t.lexLiteral word value = .ok (.event e, t')) :
    t'.buffer.length < t.buffer.length := by
  unfold lexLiteral at h
  dsimp only at h
  split at h
  · exact absurd h fail_ne_ok
  · split at h
    · split at h
      · exact absurd h fail_ne_ok
      · simp at h
    · next hlen =>
      have hb' := buffer_scalar t word.bytes.length value
      rw [Except.ok.inj h] at hb'
      simp only at hb'
      have hpos : 0 < word.bytes.length := by cases word <;> simp [LiteralWord.bytes]
      simp only [List.length_take] at hlen
      rw [hb', List.length_drop]
      omega

/-- The event of a bracket uses the bracket. -/
theorem length_buffer_of_container {t t' : Tokenizer} {e : Event} {s : TokenizerStep × Tokenizer}
    (hb : t.buffer ≠ []) (hs : s.2.buffer = t.buffer.drop 1)
    (h : (.ok s : Except TokenError (TokenizerStep × Tokenizer)) = .ok (.event e, t')) :
    t'.buffer.length < t.buffer.length := by
  rw [Except.ok.inj h] at hs
  simp only at hs
  have := List.length_pos_iff.2 hb
  rw [hs, List.length_drop]
  omega

/-- The event at the beginning of a value uses a byte, whatever value it is. -/
theorem length_buffer_of_lexValue {t t' : Tokenizer} {e : Event} {b : UInt8} {rest : List UInt8}
    (hb : t.buffer = b :: rest) (h : t.lexValue b = .ok (.event e, t')) :
    t'.buffer.length < t.buffer.length := by
  have hne : t.buffer ≠ [] := by simp [hb]
  unfold lexValue at h
  split at h
  · exact length_buffer_of_container hne (by simp [openContainer, advance]) h
  · split at h
    · exact length_buffer_of_container hne (by simp [openContainer, advance]) h
    · split at h
      · exact length_buffer_of_lexString hne (fun _ _ => buffer_scalar _ _ _) h
      · split at h
        · next hn => exact length_buffer_of_lexNumber hb hn h
        · split at h
          · exact length_buffer_of_lexLiteral h
          · split at h
            · exact length_buffer_of_lexLiteral h
            · split at h
              · exact length_buffer_of_lexLiteral h
              · exact absurd h fail_ne_ok

/-- Closing a container uses the bracket. -/
theorem buffer_closeContainer (t : Tokenizer) (e : Event) :
    (t.closeContainer e).2.buffer = t.buffer.drop 1 := by
  simp [closeContainer, afterValue, advance]

/-- The event of a key uses the bytes of its string. -/
theorem length_buffer_of_lexKey {t t' : Tokenizer} {e : Event} (hb : t.buffer ≠ [])
    (h : t.lexKey = .ok (.event e, t')) : t'.buffer.length < t.buffer.length :=
  length_buffer_of_lexString hb (fun _ _ => by simp [advance]) h

/-- Whatever is expected next, an event uses a byte. -/
theorem length_buffer_of_lexNext {t t' : Tokenizer} {e : Event} {b : UInt8} {rest : List UInt8}
    (hb : t.buffer = b :: rest) (h : t.lexNext b = .ok (.event e, t')) :
    t'.buffer.length < t.buffer.length := by
  have hne : t.buffer ≠ [] := by simp [hb]
  have hclose : ∀ {e₁ : Event},
      (.ok (t.closeContainer e₁) : Except TokenError (TokenizerStep × Tokenizer)) =
        .ok (.event e, t') → t'.buffer.length < t.buffer.length :=
    fun h => length_buffer_of_container hne (buffer_closeContainer _ _) h
  unfold lexNext at h
  split at h
  · exact length_buffer_of_lexValue hb h
  · split at h
    · exact hclose h
    · exact length_buffer_of_lexValue hb h
  · split at h
    · exact length_buffer_of_lexKey hne h
    · exact absurd h fail_ne_ok
  · split at h
    · exact hclose h
    · split at h
      · exact length_buffer_of_lexKey hne h
      · exact absurd h fail_ne_ok
  · exact absurd h fail_ne_ok
  · split at h
    · split at h
      · exact hclose h
      · exact absurd h fail_ne_ok
    · split at h
      · exact hclose h
      · exact absurd h fail_ne_ok
    · exact absurd h fail_ne_ok
  · exact absurd h fail_ne_ok

/-- Every event uses at least one byte. -/
theorem length_buffer_of_event {t t' : Tokenizer} {e : Event}
    (h : t.pull = .ok (.event e, t')) : t'.buffer.length < t.buffer.length := by
  refine Nat.lt_of_lt_of_le ?_ (length_buffer_skipSeparator_le t)
  unfold pull lex at h
  split at h
  · split at h
    · simp at h
    · split at h
      · simp at h
      · exact absurd h fail_ne_ok
  · next hb => exact length_buffer_of_lexNext hb h

/-! ### Runs -/

/-- Why a run over the bytes at hand stopped. -/
inductive Stop where
  /-- The bytes do not suffice. -/
  | needMore
  /-- The value is complete and the text is at its end. -/
  | finished
  | error (e : TokenError)
  deriving DecidableEq, Repr

/-- Pulls until there is no further event, and folds the events into a state. The step also sees the
tokenizer after the event. -/
def fold {σ : Type} (step : σ → Event → Tokenizer → σ) (t : Tokenizer) (s : σ) :
    σ × Tokenizer × Stop :=
  match _h : t.pull with
  | .ok (.event e, t') => fold step t' (step s e t')
  | .ok (.needMore, t') => (s, t', .needMore)
  | .ok (.finished, t') => (s, t', .finished)
  | .error e => (s, t, .error e)
termination_by t.buffer.length
decreasing_by exact length_buffer_of_event _h

/-- The events that the bytes at hand give, the tokenizer after them, and why there are no more. -/
def drain (t : Tokenizer) : List Event × Tokenizer × Stop :=
  let (events, t, stop) := t.fold (fun acc e _ => e :: acc) []
  (events.reverse, t, stop)

end Tokenizer

end EntityDump
