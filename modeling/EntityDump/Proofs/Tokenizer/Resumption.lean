import EntityDump.Proofs.Tokenizer.Outcome
/-!
# Resuming in the middle of a text

A tokenizer that holds a beginning of the bytes waits for more of them, gives up on a token that is too long,
or gives what stands however the text goes on: `pull_complete`. A token that waits is read again from its
first byte when more bytes have come, and blanks and separators that were used before the bytes ran out are
not missed (`skipSeparator_complete`).

`complete` compares a tokenizer with the one that has the whole rest of the text at hand. Its outcome is
what every way of handing the rest over piece by piece comes to.
-/

namespace EntityDump

open Json (Event)

/-! ### Tokens with more bytes behind them -/

namespace Lexeme

/-- A closing quote is found where it was when more bytes follow. -/
lemma closingQuote_append {seen n : Nat} {bytes : List UInt8} (more : List UInt8)
    (h : closingQuote seen bytes = some n) : closingQuote seen (bytes ++ more) = some n := by
  fun_induction closingQuote seen bytes with
  | case1 => simp at h
  | case2 seen rest => rwa [List.cons_append, closingQuote_quote]
  | case3 => simp at h
  | case4 seen e rest hq ih =>
    rw [List.cons_append, List.cons_append, closingQuote_backslash]
    exact ih h
  | case5 seen b rest hq hb ih =>
    rw [List.cons_append, closingQuote_of_ne hq hb]
    exact ih h

/-- A string token ends where it did when more bytes follow. -/
lemma stringLength?_append {bytes : List UInt8} {n : Nat} (more : List UInt8) (hb : bytes ≠ [])
    (h : stringLength? bytes = some n) : stringLength? (bytes ++ more) = some n := by
  obtain ⟨b, rest, rfl⟩ := List.exists_cons_of_ne_nil hb
  exact closingQuote_append more h

/-- A run of bytes that ends before the bytes do ends there also when more follow. -/
lemma takeWhile_append_of_drop_ne_nil {p : UInt8 → Bool} {bytes : List UInt8} (more : List UInt8)
    (h : bytes.drop (bytes.takeWhile p).length ≠ []) :
    (bytes ++ more).takeWhile p = bytes.takeWhile p := by
  rw [List.takeWhile_append, if_neg]
  intro hlen
  exact h (by rw [hlen, List.drop_length])

end Lexeme

namespace Tokenizer

/-! ### The whole rest at hand -/

/-- The tokenizer with the whole rest of the text at hand. -/
def complete (t : Tokenizer) (rest : List UInt8) : Tokenizer :=
  { t with buffer := t.buffer ++ rest, ended := true }

section Fields

variable (t : Tokenizer) (rest : List UInt8)

@[simp] lemma complete_buffer : (t.complete rest).buffer = t.buffer ++ rest := rfl

@[simp] lemma complete_stack : (t.complete rest).stack = t.stack := rfl

@[simp] lemma complete_expect : (t.complete rest).expect = t.expect := rfl

@[simp] lemma complete_ended : (t.complete rest).ended = true := rfl

end Fields

/-- A piece that was fed is part of the rest. -/
lemma complete_feed (t : Tokenizer) (piece rest : List UInt8) :
    (t.feed piece).complete rest = t.complete (piece ++ rest) := by
  simp [complete, feed]

/-- Using bytes that are at hand uses the same bytes of the whole rest. -/
lemma advance_complete {t : Tokenizer} {n : Nat} (rest : List UInt8) (hn : n ≤ t.buffer.length) :
    (t.complete rest).advance n = (t.advance n).complete rest := by
  simp [complete, advance, List.drop_append_of_le_length hn]

/-- A result with the whole rest of the text at hand behind it. -/
def completeResult (rest : List UInt8) (r : Except TokenError (TokenizerStep × Tokenizer)) :
    Except TokenError (TokenizerStep × Tokenizer) :=
  r.map fun r => (r.1, r.2.complete rest)

@[simp] lemma completeResult_ok (rest : List UInt8) (step : TokenizerStep) (t : Tokenizer) :
    completeResult rest (.ok (step, t)) = .ok (step, t.complete rest) := rfl

@[simp] lemma completeResult_fail (t : Tokenizer) (rest : List UInt8) (fault : TokenFault) :
    completeResult rest (t.fail fault) = (t.complete rest).fail fault := rfl

/-! ### Blanks and separators -/

section Blanks

variable {t : Tokenizer} (rest : List UInt8)

/-- Using no bytes changes nothing. -/
@[simp] lemma advance_zero (t : Tokenizer) : t.advance 0 = t := rfl

/-- Using bytes twice uses them all. -/
lemma advance_advance (t : Tokenizer) (m n : Nat) : (t.advance m).advance n = t.advance (m + n) := by
  simp [advance, Nat.add_assoc]

/-- A blank is skipped like those behind it. -/
lemma skipBlanks_of_isBlank {b : UInt8} {bytes : List UInt8} (hb : t.buffer = b :: bytes)
    (h : Lexeme.isBlank b = true) : t.skipBlanks = (t.advance 1).skipBlanks := by
  simp only [skipBlanks, advance_advance]
  simp [advance, hb, h, Nat.add_comm]

/-- The blanks that are skipped stand first. -/
lemma takeWhile_append_skipBlanks (t : Tokenizer) :
    t.buffer.takeWhile Lexeme.isBlank ++ t.skipBlanks.buffer = t.buffer :=
  List.prefix_iff_eq_append.1 (List.takeWhile_prefix _)

/-- Where no blank stands, none is skipped. -/
lemma skipBlanks_eq_self (h : ∀ b ∈ t.buffer.head?, Lexeme.isBlank b = false) : t.skipBlanks = t := by
  have hnone : t.buffer.takeWhile Lexeme.isBlank = [] := by
    cases hb : t.buffer with
    | nil => rfl
    | cons b bytes => exact List.takeWhile_cons_of_neg (by simp [h b (by simp [hb])])
  simp [skipBlanks, hnone]

/-- Behind the blanks that are skipped no blank stands. -/
lemma head?_skipBlanks (t : Tokenizer) :
    ∀ b ∈ t.skipBlanks.buffer.head?, Lexeme.isBlank b = false := by
  induction hb : t.buffer generalizing t with
  | nil => simp [skipBlanks, advance, hb]
  | cons b bytes ih =>
    cases h : Lexeme.isBlank b with
    | true =>
      rw [skipBlanks_of_isBlank hb h]
      exact ih _ (by simp [advance, hb])
    | false =>
      rw [skipBlanks_eq_self (by simp [hb, h])]
      simp [hb, h]

/-- Blanks that were skipped before the rest came are not missed. -/
lemma skipBlanks_complete (t : Tokenizer) :
    (t.complete rest).skipBlanks = (t.skipBlanks.complete rest).skipBlanks := by
  induction hb : t.buffer generalizing t with
  | nil => rw [skipBlanks_eq_self (t := t) (by simp [hb])]
  | cons b bytes ih =>
    cases h : Lexeme.isBlank b with
    | true =>
      rw [skipBlanks_of_isBlank hb h, skipBlanks_of_isBlank (t := t.complete rest)
        (show (t.complete rest).buffer = b :: (bytes ++ rest) by simp [hb]) h,
        advance_complete rest (by simp [hb]), ih _ (by simp [advance, hb])]
    | false => rw [skipBlanks_eq_self (t := t) (by simp [hb, h])]

/-- Where a byte is left, only blanks before it were skipped. -/
lemma skipBlanks_complete_of_ne_nil (h : t.skipBlanks.buffer ≠ []) :
    (t.complete rest).skipBlanks = t.skipBlanks.complete rest := by
  rw [skipBlanks_complete]
  obtain ⟨b, bytes, hb⟩ := List.exists_cons_of_ne_nil h
  have hnot := head?_skipBlanks t b (by simp [hb])
  exact skipBlanks_eq_self (by simp [hb, hnot])

/-- What may be a separator is decided by the first byte at hand. -/
lemma separator?_complete (h : t.buffer ≠ []) : (t.complete rest).separator? = t.separator? := by
  obtain ⟨b, bytes, hb⟩ := List.exists_cons_of_ne_nil h
  rcases hs : t.stack with _ | ⟨_ | _, _⟩ <;> cases he : t.expect <;>
    simp [separator?, hb, hs, he]

/-- Without a byte there is no separator. -/
lemma separator?_of_nil (h : t.buffer = []) : t.separator? = none := by
  simp [separator?, h]

/-- Behind a separator none follows. -/
lemma separator?_of_separator? {x : Expect} {u : Tokenizer} (h : t.separator? = some x)
    (hu : u.expect = x) : u.separator? = none := by
  have hx : x = .value ∨ x = .key := by
    unfold separator? at h
    split at h <;> grind
  rcases hx with rfl | rfl <;> simp [separator?, hu]

/-- Without a separator only blanks are skipped. -/
lemma skipSeparator_of_none (h : t.skipBlanks.separator? = none) :
    t.skipSeparator = t.skipBlanks := by
  simp [skipSeparator, h]

/-- A separator is used with the blanks behind it. -/
lemma skipSeparator_of_some {x : Expect} (h : t.skipBlanks.separator? = some x) :
    t.skipSeparator = { t.skipBlanks.advance 1 with expect := x }.skipBlanks := by
  simp [skipSeparator, h]

/-- The first byte at hand is the first of a token: there is neither a blank nor a separator to skip. -/
structure AtToken (t : Tokenizer) : Prop where
  notBlank : ∀ b ∈ t.buffer.head?, Lexeme.isBlank b = false
  notSeparator : t.separator? = none

/-- Before a token nothing is skipped. -/
lemma AtToken.skipSeparator (h : t.AtToken) : t.skipSeparator = t := by
  have hblanks := skipBlanks_eq_self h.notBlank
  rw [skipSeparator_of_none (by rw [hblanks, h.notSeparator]), hblanks]

/-- Skipping leads to a token. -/
lemma atToken_skipSeparator (t : Tokenizer) : t.skipSeparator.AtToken := by
  cases hsep : t.skipBlanks.separator? with
  | none =>
    rw [skipSeparator_of_none hsep]
    exact ⟨head?_skipBlanks t, hsep⟩
  | some x =>
    rw [skipSeparator_of_some hsep]
    exact ⟨head?_skipBlanks _, separator?_of_separator? hsep rfl⟩

/-- A token at hand is at hand with the whole rest as well. -/
lemma AtToken.complete (h : t.AtToken) (hne : t.buffer ≠ []) : (t.complete rest).AtToken := by
  obtain ⟨b, bytes, hb⟩ := List.exists_cons_of_ne_nil hne
  refine ⟨?_, by rw [separator?_complete rest hne, h.notSeparator]⟩
  have hnot := h.notBlank b (by simp [hb])
  simpa [hb] using hnot

/-- What is skipped up to the next token is the same whether the rest came before or after. -/
lemma skipSeparator_complete (t : Tokenizer) :
    (t.complete rest).skipSeparator = (t.skipSeparator.complete rest).skipSeparator := by
  by_cases hnil : t.skipBlanks.buffer = []
  · rw [skipSeparator_of_none (separator?_of_nil hnil)]
    unfold skipSeparator
    rw [skipBlanks_complete]
  · have hblanks := skipBlanks_complete_of_ne_nil rest hnil
    have hcomplete := separator?_complete rest hnil
    cases hsep : t.skipBlanks.separator? with
    | none =>
      have htoken : (t.skipBlanks.complete rest).AtToken :=
        AtToken.complete rest ⟨head?_skipBlanks t, hsep⟩ hnil
      rw [skipSeparator_of_none hsep, htoken.skipSeparator,
        skipSeparator_of_none (by rw [hblanks, hcomplete, hsep]), hblanks]
    | some x =>
      have hone : 1 ≤ t.skipBlanks.buffer.length := List.length_pos_iff.2 hnil
      have hbehind : ({ t.skipBlanks.advance 1 with expect := x }.skipBlanks.complete
          rest).skipBlanks.separator? = none := separator?_of_separator? hsep rfl
      rw [skipSeparator_of_some hsep, skipSeparator_of_none hbehind, ← skipBlanks_complete,
        skipSeparator_of_some (x := x) (by rw [hblanks, hcomplete, hsep]), hblanks,
        advance_complete rest hone]
      rfl

end Blanks

/-! ### Tokens

A token that begins at the first byte at hand waits for more bytes, is too long, or is read as it is read with
the whole rest at hand. -/

section Tokens

variable {t : Tokenizer} (rest : List UInt8)

/-- Reading waits for more bytes, gives up on an unfinished token beyond the limit, or gives what it gives with
the whole rest at hand. -/
def Resumes (t : Tokenizer) (rest : List UInt8)
    (r r' : Except TokenError (TokenizerStep × Tokenizer)) : Prop :=
  r = .ok (.needMore, t) ∨
    (t.maxTokenBytes < t.buffer.length ∧ ∃ kind, r = t.fail (.tooLong kind t.maxTokenBytes)) ∨
    r' = completeResult rest r

/-- An unfinished token waits, or it is beyond the limit. -/
lemma resumes_incomplete (hended : t.ended = false) (kind : TokenKind)
    (r' : Except TokenError (TokenizerStep × Tokenizer)) : t.Resumes rest (t.incomplete kind) r' := by
  by_cases hmax : t.maxTokenBytes < t.buffer.length
  · exact .inr (.inl ⟨hmax, kind, by simp [incomplete, hended, hmax]⟩)
  · exact .inl (by simp [incomplete, hended, hmax])

/-- What comes out the same with the rest at hand is resumed. -/
lemma resumes_of_eq {r r' : Except TokenError (TokenizerStep × Tokenizer)}
    (h : r' = completeResult rest r) : t.Resumes rest r r' :=
  .inr (.inr h)

/-- A string is resumed if what is done with its text does not look at the rest. -/
lemma resumes_lexString {next next' : String → Nat → TokenizerStep × Tokenizer}
    (hended : t.ended = false) (hne : t.buffer ≠ [])
    (hnext : ∀ text n, n ≤ t.buffer.length →
      next' text n = ((next text n).1, (next text n).2.complete rest)) :
    t.Resumes rest (t.lexString next) ((t.complete rest).lexString next') := by
  unfold lexString
  cases hlen : Lexeme.stringLength? t.buffer with
  | none => exact resumes_incomplete rest hended _ _
  | some n =>
    obtain ⟨-, hn⟩ := Lexeme.stringLength?_le hne hlen
    refine resumes_of_eq rest ?_
    rw [complete_buffer, Lexeme.stringLength?_append rest hne hlen]
    simp only [List.take_append_of_le_length hn]
    cases hdecode : Json.StringToken.decode (t.buffer.take n) with
    | ok text => simp [hnext text n hn, completeResult, Except.map]
    | error e => simp

/-- A scalar takes the same bytes with the whole rest at hand. -/
lemma scalar_complete {n : Nat} (hn : n ≤ t.buffer.length) (value : Json) :
    (t.complete rest).scalar n value =
      ((t.scalar n value).1, (t.scalar n value).2.complete rest) := by
  rw [scalar, advance_complete rest hn]
  rfl

/-- A key is resumed. -/
lemma resumes_lexKey (hended : t.ended = false) (hne : t.buffer ≠ []) :
    t.Resumes rest t.lexKey (t.complete rest).lexKey := by
  refine resumes_lexString rest hended hne fun text n hn => ?_
  rw [advance_complete rest hn]
  rfl

/-- A number behind which another byte stands or the text ends is decoded. -/
lemma lexNumber_of_closed
    (h : t.buffer.drop (t.buffer.takeWhile Lexeme.isNumberByte).length ≠ [] ∨ t.ended = true) :
    t.lexNumber =
      match Json.Number.decode? (Lexeme.asciiText (t.buffer.takeWhile Lexeme.isNumberByte)) with
      | some n => .ok (t.scalar (t.buffer.takeWhile Lexeme.isNumberByte).length (.number n))
      | none => t.fail (.badNumber
          (String.ofList (Lexeme.asciiText (t.buffer.takeWhile Lexeme.isNumberByte)))) := by
  unfold lexNumber
  rcases h with h | h
  · exact if_neg (by simp [List.isEmpty_iff, h])
  · exact if_neg (by simp [h])

/-- A number is resumed: it waits unless a byte behind it ends it. -/
lemma resumes_lexNumber (hended : t.ended = false) :
    t.Resumes rest t.lexNumber (t.complete rest).lexNumber := by
  by_cases hopen : t.buffer.drop (t.buffer.takeWhile Lexeme.isNumberByte).length = []
  · have hincomplete : t.lexNumber = t.incomplete .number := by
      unfold lexNumber
      rw [if_pos (by simp only [hopen, hended, List.isEmpty_nil, Bool.not_false, Bool.and_self])]
    rw [hincomplete]
    exact resumes_incomplete rest hended _ _
  · refine resumes_of_eq rest ?_
    have hle := (List.takeWhile_sublist (l := t.buffer) Lexeme.isNumberByte).length_le
    rw [lexNumber_of_closed (.inl hopen), lexNumber_of_closed (.inr (complete_ended t rest)),
      complete_buffer, Lexeme.takeWhile_append_of_drop_ne_nil rest hopen]
    cases Json.Number.decode? (Lexeme.asciiText (t.buffer.takeWhile Lexeme.isNumberByte)) with
    | none => rfl
    | some n =>
      dsimp only
      rw [scalar_complete rest hle]
      rfl

/-- A literal word is resumed. -/
lemma resumes_lexLiteral (hended : t.ended = false) (word : LiteralWord) (value : Json) :
    t.Resumes rest (t.lexLiteral word value) ((t.complete rest).lexLiteral word value) := by
  by_cases hword : word.bytes <+: t.buffer
  · refine resumes_of_eq rest ?_
    rw [lexLiteral_of_begins hword, lexLiteral_of_begins (hword.trans (List.prefix_append _ _)),
      scalar_complete rest hword.length_le]
    rfl
  · by_cases hopen : t.buffer <+: word.bytes
    · left
      rw [lexLiteral_of_cut hopen fun heq => hword (heq ▸ List.prefix_rfl), hended]
      rfl
    · refine resumes_of_eq rest ?_
      rw [lexLiteral_of_differs hword hopen, lexLiteral_of_differs]
      · rfl
      -- Neither can become a prefix of the other by bytes that come behind.
      · intro h
        exact (List.prefix_or_prefix_of_prefix h (List.prefix_append _ rest)).elim hword hopen
      · exact fun h => hopen ((List.prefix_append _ _).trans h)

/-- A container opens in the same way with the whole rest at hand. -/
lemma openContainer_complete (hne : t.buffer ≠ []) (kind : Container) :
    (t.complete rest).openContainer kind =
      ((t.openContainer kind).1, (t.openContainer kind).2.complete rest) := by
  have hone : 1 ≤ t.buffer.length := List.length_pos_iff.2 hne
  cases kind <;> · rw [openContainer, advance_complete rest hone]; rfl

/-- A container closes in the same way with the whole rest at hand. -/
lemma closeContainer_complete (hne : t.buffer ≠ []) (e : Event) :
    (t.complete rest).closeContainer e =
      ((t.closeContainer e).1, (t.closeContainer e).2.complete rest) := by
  have hone : 1 ≤ t.buffer.length := List.length_pos_iff.2 hne
  rw [closeContainer, advance_complete rest hone]
  rfl

/-- A value is resumed, whatever its first byte. -/
lemma resumes_lexValue (hended : t.ended = false) (hne : t.buffer ≠ []) (b : UInt8) :
    t.Resumes rest (t.lexValue b) ((t.complete rest).lexValue b) := by
  unfold lexValue
  split
  · exact resumes_of_eq rest (by rw [openContainer_complete rest hne]; rfl)
  split
  · exact resumes_of_eq rest (by rw [openContainer_complete rest hne]; rfl)
  split
  · exact resumes_lexString rest hended hne fun _ _ hn => scalar_complete rest hn _
  split
  · exact resumes_lexNumber rest hended
  split
  · exact resumes_lexLiteral rest hended _ _
  split
  · exact resumes_lexLiteral rest hended _ _
  split
  · exact resumes_lexLiteral rest hended _ _
  · exact resumes_of_eq rest rfl

/-- What the first byte of a token begins waits for more bytes, is too long, or gives what it gives with the
whole rest at hand. -/
theorem resumes_lexNext (hended : t.ended = false) (hne : t.buffer ≠ []) (b : UInt8) :
    t.Resumes rest (t.lexNext b) ((t.complete rest).lexNext b) := by
  have hclose : ∀ e, t.Resumes rest (.ok (t.closeContainer e))
      (.ok ((t.complete rest).closeContainer e)) :=
    fun e => resumes_of_eq rest (by rw [closeContainer_complete rest hne]; rfl)
  have hrefused : ∀ fault, t.Resumes rest (t.fail fault) ((t.complete rest).fail fault) :=
    fun fault => resumes_of_eq rest rfl
  have hvalue := resumes_lexValue rest hended hne b
  have hkey := resumes_lexKey rest hended hne
  -- What is expected decides, and it is the same with the rest at hand.
  unfold lexNext
  cases hexpect : t.expect with
  | value => simpa only [complete_expect, hexpect] using hvalue
  | firstValue =>
    simp only [complete_expect, hexpect]
    split
    · exact hclose _
    · exact hvalue
  | key =>
    simp only [complete_expect, hexpect]
    split
    · exact hkey
    · exact hrefused _
  | firstKey =>
    simp only [complete_expect, hexpect]
    split
    · exact hclose _
    split
    · exact hkey
    · exact hrefused _
  | colon =>
    simp only [complete_expect, hexpect]
    exact hrefused _
  | commaOrClose =>
    simp only [complete_expect, hexpect, complete_stack]
    rcases t.stack with _ | ⟨_ | _, _⟩ <;> dsimp only
    · exact hrefused _
    · split
      · exact hclose _
      · exact hrefused _
    · split
      · exact hclose _
      · exact hrefused _
  | finished =>
    simp only [complete_expect, hexpect]
    exact hrefused _

end Tokens

/-! ### Pulling -/

section Pull

variable {t : Tokenizer} (rest : List UInt8)

/-- A pull waits for more bytes, and then the separator that it used is not missed; or it gives up on a token
beyond the limit; or it gives what it gives with the whole rest at hand. -/
theorem pull_complete (hended : t.ended = false) :
    (t.pull = .ok (.needMore, t.skipSeparator) ∧
        (t.complete rest).pull = (t.skipSeparator.complete rest).pull) ∨
      (t.maxTokenBytes < t.buffer.length ∧
        ∃ kind, t.pull = t.skipSeparator.fail (.tooLong kind t.maxTokenBytes)) ∨
      (t.complete rest).pull = completeResult rest t.pull := by
  have hskip := skipSeparator_complete rest t
  have hwait : t.pull = .ok (.needMore, t.skipSeparator) →
      t.pull = .ok (.needMore, t.skipSeparator) ∧
        (t.complete rest).pull = (t.skipSeparator.complete rest).pull :=
    fun h => ⟨h, by rw [pull, pull, hskip]⟩
  cases hb : t.skipSeparator.buffer with
  | nil =>
    left
    exact hwait (by simp [pull, lex, hb, (advances_skipSeparator t).ended, hended])
  | cons b bytes =>
    have hne : t.skipSeparator.buffer ≠ [] := by simp [hb]
    have hpull : t.pull = t.skipSeparator.lexNext b := lex_of_cons hb
    have hpull' : (t.complete rest).pull = (t.skipSeparator.complete rest).lexNext b := by
      rw [pull, hskip, ((atToken_skipSeparator t).complete rest hne).skipSeparator]
      exact lex_of_cons (show (t.skipSeparator.complete rest).buffer = b :: (bytes ++ rest) by simp [hb])
    rcases resumes_lexNext rest ((advances_skipSeparator t).ended.trans hended) hne b with
      h | ⟨hmax, kind, h⟩ | h
    · exact .inl (hwait (hpull.trans h))
    · rw [(advances_skipSeparator t).maxTokenBytes] at hmax h
      exact .inr (.inl ⟨Nat.lt_of_lt_of_le hmax (length_buffer_skipSeparator_le t), kind, hpull.trans h⟩)
    · exact .inr (.inr (by rw [hpull', hpull, h]))

end Pull

end Tokenizer

end EntityDump
