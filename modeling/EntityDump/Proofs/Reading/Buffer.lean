import EntityDump.Proofs.Reading.Steps
import EntityDump.Proofs.Tokenizer.Tokens
import Mathlib.Data.List.Forall2
/-!
# What a reader keeps

A reader keeps few bytes of its file: what is left where a pull waits, and a chunk (`Keeps.step`). The strings and
numbers that it accepts are those of the file, one after the other, and no longer than what it keeps, and a token is
beyond the limit only in a file that has such a token (`buffer_bounded`).
-/

namespace EntityDump

open Json (Event)
open Lexeme (tokens Denotes)

namespace Reader

/-- The most bytes that a reader keeps: an unfinished token within the limit or a word, and a chunk. -/
def maxBuffered (config : StreamConfig) : Nat :=
  max config.maxTokenBytes 4 + max config.chunkSize 1

/-- The events of strings and numbers so far. -/
def tokenEvents (x : Reader) : List Event :=
  (x.given.map Prod.fst).filter Event.hasToken

/-- A reader that keeps few bytes, and has taken the strings and numbers of its file one after the other. -/
structure Keeps (config : StreamConfig) (bytes : List UInt8) (x : Reader) : Prop where
  limit : x.reading.tokenizer.maxTokenBytes = config.maxTokenBytes
  buffered_le : x.reading.tokenizer.buffered ≤ maxBuffered config
  accepted : ∃ accepted, tokens bytes = accepted ++ tokens (x.reading.tokenizer.buffer ++ x.unread) ∧
    List.Forall₂ Denotes accepted x.tokenEvents ∧ ∀ token ∈ accepted, token.length ≤ maxBuffered config

variable {n : Nat} {x y : Reader} {t : Tokenizer} {e : Event} {config : StreamConfig} {bytes : List UInt8}

lemma keeps_start (config : StreamConfig) (bytes : List UInt8) : Keeps config bytes (start config bytes) :=
  ⟨rfl, Nat.zero_le _, [], rfl, .nil, List.forall_mem_nil _⟩

/-- An event that comes from a token is the last of those. -/
lemma tokenEvents_give (x : Reader) (e : Event) (t : Tokenizer) :
    (x.give e t).tokenEvents = x.tokenEvents ++ if e.hasToken then [e] else [] := by
  simp [tokenEvents, give, List.filter_cons]

/-- An event takes the next token of the file, or no part of one. -/
lemma Keeps.give {maxTokenBytes : Nat} (h : Keeps config bytes x) (hreading : IsReading maxTokenBytes bytes x)
    (hp : x.reading.tokenizer.pull = .ok (.event e, t)) : Keeps config bytes (x.give e t) := by
  have hadv := Tokenizer.advances_of_pull hp
  have hskip := Tokenizer.advances_skipSeparator x.reading.tokenizer
  obtain ⟨accepted, htokens, hdenotes, hlengths⟩ := h.accepted
  obtain ⟨token, hsplit, -, htakes, hend⟩ := Tokenizer.token_of_event hp
  -- At the end of the bytes at hand a number is taken only where the file is at its end as well.
  have hrest : ∀ n, e = .scalar (.number n) → ∀ b ∈ (t.buffer ++ x.unread).head?, Lexeme.isNumberByte b = false := by
    intro n hn b hb
    obtain ⟨hhead, hnil⟩ := hend n hn
    cases hbuffer : t.buffer with
    | nil =>
      rw [hbuffer, hreading.unread_eq_nil (hskip.ended ▸ hnil hbuffer)] at hb
      cases hb
    | cons b' tail =>
      rw [hbuffer] at hb hhead
      exact hhead b hb
  have hnext : tokens bytes = accepted ++ tokens (token ++ (t.buffer ++ x.unread)) := by
    rw [htokens, ← Tokenizer.tokens_skipSeparator, hsplit, List.append_assoc]
  refine ⟨hadv.maxTokenBytes.trans h.limit, Nat.le_trans hadv.length_buffer_le h.buffered_le, ?_⟩
  rcases htakes.tokens_append hrest with ⟨hhas, htoken, heq⟩ | ⟨hhas, heq⟩
  · refine ⟨accepted ++ [token], ?_, ?_, ?_⟩
    · rw [hnext, heq, List.append_assoc]
      rfl
    · rw [tokenEvents_give, if_pos hhas]
      exact List.rel_append hdenotes (.cons htoken .nil)
    · have hle : token.length ≤ x.reading.tokenizer.skipSeparator.buffer.length := by
        rw [hsplit, List.length_append]
        exact Nat.le_add_right _ _
      have hbuffered := Nat.le_trans hle (Nat.le_trans hskip.length_buffer_le h.buffered_le)
      exact List.forall_mem_append.2 ⟨hlengths, List.forall_mem_singleton.2 hbuffered⟩
  · refine ⟨accepted, hnext.trans (congrArg _ heq), ?_, hlengths⟩
    rwa [tokenEvents_give, hhas, if_neg Bool.false_ne_true, List.append_nil]

/-- Where a pull waits, the tokens that are left are still those of the file. -/
lemma Keeps.of_needMore (h : Keeps config bytes x) (hp : x.reading.tokenizer.pull = .ok (.needMore, t)) :
    t.maxTokenBytes = config.maxTokenBytes ∧ t.buffered ≤ max config.maxTokenBytes 4 ∧
      tokens (t.buffer ++ x.unread) = tokens (x.reading.tokenizer.buffer ++ x.unread) := by
  have hlimit := (Tokenizer.advances_of_pull hp).maxTokenBytes.trans h.limit
  obtain ⟨rfl, -, hwaits⟩ := Tokenizer.waits_of_needMore hp
  rw [h.limit] at hwaits
  exact ⟨hlimit, hwaits, Tokenizer.tokens_skipSeparator _ _⟩

/-- A step keeps few bytes. -/
lemma Keeps.step {maxTokenBytes : Nat} (h : Keeps config bytes x) (hreading : IsReading maxTokenBytes bytes x)
    (hstep : Step config.chunkSize x y) : Keeps config bytes y := by
  obtain ⟨accepted, htokens, hdenotes, hlengths⟩ := h.accepted
  cases hstep with
  | event hp => exact h.give hreading hp
  | @read t piece rest hp hunread _ hpiece =>
    obtain ⟨hlimit, hbuffered, hleft⟩ := h.of_needMore hp
    refine ⟨hlimit, ?_, accepted, ?_, hdenotes, hlengths⟩
    · have hsum : (x.read t piece rest).reading.tokenizer.buffered = t.buffered + piece.length :=
        List.length_append
      rw [hsum]
      exact Nat.add_le_add hbuffered hpiece
    · rw [htokens, ← hleft, hunread, ← List.append_assoc]
      rfl
  | finish hp hunread =>
    obtain ⟨hlimit, hbuffered, hleft⟩ := h.of_needMore hp
    refine ⟨hlimit, Nat.le_trans hbuffered (Nat.le_add_right _ _), accepted, ?_, hdenotes, hlengths⟩
    rw [htokens, ← hleft]
    rfl

/-- Wherever a reader of a file gets, it keeps few bytes. -/
lemma Run.keeps (h : Run config.chunkSize (start config bytes) n x) : Keeps config bytes x := by
  induction h with
  | refl => exact keeps_start config bytes
  | step hrun hstep ih => exact ih.step hrun.isReading hstep

/-- A token beyond the limit is one of the file. -/
lemma Keeps.exists_token_of_tooLong (h : Keeps config bytes x) {e : TokenError} {kind : TokenKind} {limit : Nat}
    (hp : x.reading.tokenizer.pull = .error e) (hfault : e.fault = .tooLong kind limit) :
    ∃ token ∈ tokens bytes, config.maxTokenBytes < token.length := by
  obtain ⟨hunfinished, hlong⟩ := Tokenizer.unfinished_of_tooLong hp hfault
  obtain ⟨token, htoken, hle⟩ := Lexeme.exists_tokens_of_unfinished hunfinished x.unread
  obtain ⟨accepted, htokens, -⟩ := h.accepted
  rw [Tokenizer.tokens_skipSeparator] at htoken
  rw [h.limit] at hlong
  exact ⟨token, htokens ▸ List.mem_append_right accepted htoken, Nat.lt_of_lt_of_le hlong hle⟩

/-- At every point of a run over a file the tokenizer holds few bytes, and no more behind a pull. The strings and
numbers of the events so far are the first ones of the file, and none is longer than that. A file without a string
or number beyond the limit, a string without its end included, never fails with the fault of one. -/
theorem buffer_bounded (config : StreamConfig) (bytes : List UInt8) {n : Nat} {x : Reader}
    (h : Run config.chunkSize (start config bytes) n x) :
    x.reading.tokenizer.buffered ≤ max config.maxTokenBytes 4 + max config.chunkSize 1 ∧
      (∀ step t, x.reading.tokenizer.pull = .ok (step, t) → t.buffered ≤ x.reading.tokenizer.buffered) ∧
      (∃ accepted, tokens bytes = accepted ++ tokens (x.reading.tokenizer.buffer ++ x.unread) ∧
        List.Forall₂ Denotes accepted x.tokenEvents ∧
        ∀ token ∈ accepted, token.length ≤ max config.maxTokenBytes 4 + max config.chunkSize 1) ∧
      ((∀ token ∈ tokens bytes, token.length ≤ config.maxTokenBytes) →
        ∀ r e, x.Reports r (.error e) → ∀ kind limit, e.fault ≠ .tooLong kind limit) := by
  have hkeeps := h.keeps
  refine ⟨hkeeps.buffered_le, fun step t hp => (Tokenizer.advances_of_pull hp).length_buffer_le,
    hkeeps.accepted, ?_⟩
  intro hshort r e hreports kind limit hfault
  cases hreports with
  | fault hp =>
    obtain ⟨token, htoken, hlong⟩ := hkeeps.exists_token_of_tooLong hp hfault
    exact absurd (hshort token htoken) (Nat.not_le.2 hlong)

/-- A file with a string without its end, as long as the limit, and a reader that takes it byte by byte. -/
theorem buffer_bounded_of_open_string :
    ∃ n x, Run 1 (start { chunkSize := 1, maxTokenBytes := 2 } [0x22, 0x61]) n x ∧
      x.reading.tokenizer.buffered ≤ 5 ∧ (∀ token ∈ tokens [0x22, 0x61], token.length ≤ 2) ∧
      ∃ e, x.Reports x.reading (.error e) ∧ e = ⟨0, .unterminated .string⟩ ∧
        ∀ kind limit, e.fault ≠ .tooLong kind limit := by
  let config : StreamConfig := { chunkSize := 1, maxTokenBytes := 2 }
  let t : Tokenizer := Tokenizer.limited 2
  let x : Reader := start config [0x22, 0x61]
  have hstart : t.pull = .ok (.needMore, t) := rfl
  have hquote : (t.feed [0x22]).pull = .ok (.needMore, t.feed [0x22]) := rfl
  have hstring : (t.feed [0x22, 0x61]).pull = .ok (.needMore, t.feed [0x22, 0x61]) := rfl
  have hend : (t.feed [0x22, 0x61]).finish.pull = .error ⟨0, .unterminated .string⟩ := rfl
  have hone : Run 1 x 1 (x.read t [0x22] [0x61]) := Run.refl.step (.read hstart rfl nofun (Nat.le_refl 1))
  have htwo := hone.step (.read hquote (List.append_nil [0x61]).symm nofun (Nat.le_refl 1))
  have hthree := htwo.step (.finish hstring rfl)
  have htokens : ∀ token ∈ tokens [0x22, 0x61], token.length ≤ 2 := by
    simp [tokens, Lexeme.tokenLength, Lexeme.stringLength?, Lexeme.closingQuote, Json.StringToken.quote,
      Json.StringToken.backslash]
  obtain ⟨hbuffered, -, -, hlimit⟩ := buffer_bounded config [0x22, 0x61] hthree
  exact ⟨_, _, hthree, hbuffered, htokens, _, .fault hend, rfl, hlimit htokens _ _ (.fault hend)⟩

end Reader

end EntityDump
