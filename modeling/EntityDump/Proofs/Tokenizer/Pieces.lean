import EntityDump.Proofs.Tokenizer.Resumption
import EntityDump.Reading
/-!
# Texts in pieces

However a text is handed to a tokenizer, in pieces of any size and with any number of pulls in between, the
events are the same in total and the run ends in the same way: `follow_eq_complete` says that both are those
of a tokenizer that has the whole text at hand. The reader of files is one such caller
(`Reading.foldPieces_eq_complete`), so that the size of its chunks plays no part.
-/

namespace EntityDump

open Json (Event)

namespace Tokenizer

/-! ### Callers -/

/-- A tokenizer before its text, with a limit on unfinished tokens. -/
def limited (maxTokenBytes : Nat) : Tokenizer :=
  { maxTokenBytes := maxTokenBytes }

/-- What a caller does with a tokenizer before the text is at its end. -/
inductive Call where
  | feed (piece : List UInt8)
  | pull

/-- The bytes that calls feed. -/
def fed : List Call → List UInt8
  | [] => []
  | .feed piece :: calls => piece ++ fed calls
  | .pull :: calls => fed calls

/-- Makes calls, then ends the text and pulls until no event comes. The first fault ends the run. -/
def follow (t : Tokenizer) : List Call → List Event × Stop
  | [] => t.finish.outcome
  | .feed piece :: calls => (t.feed piece).follow calls
  | .pull :: calls =>
    match t.pull with
    | .ok (.event e, t') => prepend [e] (t'.follow calls)
    | .ok (_, t') => t'.follow calls
    | .error e => ([], .error e)

/-! ### What is given before the rest comes -/

section Complete

variable {t t' : Tokenizer} {rest : List UInt8}

/-- An event comes first also when the whole rest is at hand. -/
lemma outcome_complete_of_event {e : Event} (hended : t.ended = false)
    (hp : t.pull = .ok (.event e, t')) (rest : List UInt8) :
    (t.complete rest).outcome = prepend [e] (t'.complete rest).outcome := by
  rcases pull_complete rest hended with ⟨hwait, -⟩ | ⟨-, kind, hlong⟩ | hsame
  · rw [hp] at hwait
    cases hwait
  · rw [hp] at hlong
    cases hlong
  · exact outcome_of_event (by rw [hsame, hp]; rfl)

/-- A pull that waits loses nothing. -/
lemma outcome_complete_of_needMore (hended : t.ended = false) (hp : t.pull = .ok (.needMore, t'))
    (rest : List UInt8) : (t.complete rest).outcome = (t'.complete rest).outcome := by
  rcases pull_complete rest hended with ⟨hwait, hskip⟩ | ⟨-, kind, hlong⟩ | hsame
  · rw [hp] at hwait
    obtain ⟨-, rfl⟩ := Prod.mk.inj (Except.ok.inj hwait)
    exact outcome_congr hskip
  · rw [hp] at hlong
    cases hlong
  · rw [hp] at hsame
    exact absurd hsame (pull_ne_needMore rfl)

/-- A fault other than a token beyond the limit is one also when the whole rest is at hand. -/
lemma outcome_complete_of_error {e : TokenError} (hended : t.ended = false) (hp : t.pull = .error e)
    (hlimit : t.maxTokenBytes < t.buffer.length → ∀ kind, e.fault ≠ .tooLong kind t.maxTokenBytes)
    (rest : List UInt8) : (t.complete rest).outcome = ([], .error e) := by
  rcases pull_complete rest hended with ⟨hwait, -⟩ | ⟨hlong, kind, hfail⟩ | hsame
  · rw [hp] at hwait
    cases hwait
  · rw [hp] at hfail
    obtain rfl := Except.error.inj hfail
    exact absurd rfl (hlimit hlong kind)
  · exact outcome_of_error (by rw [hsame, hp]; rfl)

end Complete

/-! ### The outcome does not depend on the calls -/

/-- More bytes are to come, and with so many of them an unfinished token stays within the limit. -/
structure Awaits (t : Tokenizer) (more : Nat) : Prop where
  ended : t.ended = false
  withinLimit : t.buffer.length + more ≤ t.maxTokenBytes

section Awaits

variable {t t' : Tokenizer} {more : Nat} {rest : List UInt8}

lemma awaits_limited {maxTokenBytes : Nat} (h : more ≤ maxTokenBytes) :
    (limited maxTokenBytes).Awaits more :=
  ⟨rfl, by simpa [limited] using h⟩

/-- A piece that is fed was to come. -/
lemma Awaits.feed {piece : List UInt8} (h : t.Awaits (piece.length + more)) :
    (t.feed piece).Awaits more := by
  refine ⟨h.ended, ?_⟩
  have hlimit := h.withinLimit
  simp only [Tokenizer.feed, List.length_append]
  omega

/-- A pull leaves no more bytes at hand. -/
lemma Awaits.of_pull {s : TokenizerStep} (h : t.Awaits more) (hp : t.pull = .ok (s, t')) :
    t'.Awaits more := by
  have hadv := advances_of_pull hp
  refine ⟨hadv.ended.trans h.ended, ?_⟩
  rw [hadv.maxTokenBytes]
  have hle := hadv.length_buffer_le
  have hlimit := h.withinLimit
  omega

/-- A fault is one also when the whole rest is at hand. -/
lemma Awaits.outcome_complete_of_error {e : TokenError} (h : t.Awaits more) (hp : t.pull = .error e)
    (rest : List UInt8) : (t.complete rest).outcome = ([], .error e) := by
  refine Tokenizer.outcome_complete_of_error h.ended hp (fun hlong => ?_) rest
  have hlimit := h.withinLimit
  omega

/-- When the text ends, nothing is left of it. -/
lemma finish_eq_complete (t : Tokenizer) : t.finish = t.complete [] := by
  simp [finish, complete]

/-- Whatever calls hand a text over, the outcome is that of the whole text at hand. -/
theorem follow_eq_complete (t : Tokenizer) (calls : List Call) (h : t.Awaits (fed calls).length) :
    t.follow calls = (t.complete (fed calls)).outcome := by
  induction calls generalizing t with
  | nil => rw [follow, finish_eq_complete, fed]
  | cons call calls ih =>
    cases call with
    | feed piece =>
      rw [follow, ih _ (Awaits.feed (by simpa [fed] using h)), complete_feed, fed]
    | pull =>
      rw [follow, fed]
      rcases hp : t.pull with e | ⟨e | _ | _, t'⟩
      · exact (h.outcome_complete_of_error hp _).symm
      · rw [outcome_complete_of_event h.ended hp, ← ih t' (h.of_pull hp)]
      · rw [outcome_complete_of_needMore h.ended hp, ← ih t' (h.of_pull hp)]
      · exact absurd hp (pull_ne_finished h.ended)

/-- A run over the bytes at hand that waits loses nothing. -/
lemma outcome_complete_of_drain (t : Tokenizer) (h : t.Awaits more) (rest : List UInt8) :
    (∃ e, t.drain.2.2 = .error e ∧ (t.complete rest).outcome = (t.drain.1, .error e)) ∨
      (t.drain.2.2 = .needMore ∧ t.drain.2.1.Awaits more ∧
        (t.complete rest).outcome = prepend t.drain.1 (t.drain.2.1.complete rest).outcome) := by
  induction t using pull_induction with
  | event t e t' hp ih =>
    rw [drain_of_event hp, outcome_complete_of_event h.ended hp]
    rcases ih (h.of_pull hp) with ⟨e', hstop, hout⟩ | ⟨hstop, hawaits, hout⟩
    · exact .inl ⟨e', hstop, by rw [hout]; rfl⟩
    · exact .inr ⟨hstop, hawaits, by rw [hout]; simp⟩
  | stop t hstop =>
    rcases hp : t.pull with e | ⟨e | _ | _, t'⟩
    · left
      rw [drain, fold_of_error _ hp, h.outcome_complete_of_error hp]
      exact ⟨e, rfl, rfl⟩
    · exact absurd hp (hstop e t')
    · right
      rw [drain, fold_of_needMore _ hp, outcome_complete_of_needMore h.ended hp]
      exact ⟨rfl, h.of_pull hp, rfl⟩
    · exact absurd hp (pull_ne_finished h.ended)

end Awaits

end Tokenizer

/-! ### The reader of files -/

namespace Reading

open Tokenizer (Stop)

/-- How reading ends by why there are no more events. -/
def outcomeOf : Stop → Outcome
  | .error e => .error e
  | _ => .ok ()

section Fold

variable {σ : Type} (step : σ → Event → σ) (r : Reading) (s : σ)

/-- A fold over the bytes at hand that looks at the events alone is a fold over their list. -/
lemma fold_eq_foldl : ∃ r' : Reading, r'.tokenizer = r.tokenizer.drain.2.1 ∧
    fold (fun s e _ => step s e) r s =
      (r.tokenizer.drain.1.foldl step s, r', r.tokenizer.drain.2.2) := by
  have hfold := Tokenizer.fold_eq_foldl
    (fun (state : σ × Nat) event => (step state.1 event, state.2 + 1)) r.tokenizer (s, r.events)
  have hfst : ∀ (events : List Event) (state : σ × Nat),
      (events.foldl (fun (state : σ × Nat) event => (step state.1 event, state.2 + 1)) state).1 =
        events.foldl step state.1 := by
    intro events state
    induction events generalizing state with
    | nil => rfl
    | cons e events ih => exact ih _
  unfold fold
  rw [hfold]
  refine ⟨_, ?_, Prod.ext (hfst _ _) rfl⟩
  rfl

/-- A document in pieces is folded like the list of events of the whole document. -/
theorem foldPieces_eq_complete (pieces : List (List UInt8))
    (h : r.tokenizer.Awaits pieces.flatten.length) :
    (foldPieces (fun s e _ => step s e) pieces r s).1 =
        (r.tokenizer.complete pieces.flatten).outcome.1.foldl step s ∧
      (foldPieces (fun s e _ => step s e) pieces r s).2.2 =
        outcomeOf (r.tokenizer.complete pieces.flatten).outcome.2 := by
  -- After each piece the tokenizer waits for the others, which it may still hold.
  induction pieces generalizing r s with
  | nil =>
    obtain ⟨r', -, hfold⟩ := fold_eq_foldl step r.finish s
    have hfinish : r.finish.tokenizer = r.tokenizer.complete [] :=
      Tokenizer.finish_eq_complete _
    rw [foldPieces, hfold, hfinish, List.flatten_nil]
    simp only [Tokenizer.outcome]
    cases (r.tokenizer.complete []).drain.2.2 <;> exact ⟨rfl, rfl⟩
  | cons piece pieces ih =>
    obtain ⟨r', hr', hfold⟩ := fold_eq_foldl step (r.feed piece) s
    have hawaits : (r.feed piece).tokenizer.Awaits pieces.flatten.length :=
      Tokenizer.Awaits.feed (by simpa using h)
    have hfeed : (r.feed piece).tokenizer.complete pieces.flatten =
        r.tokenizer.complete (piece :: pieces).flatten :=
      Tokenizer.complete_feed _ _ _
    rw [foldPieces, hfold, ← hfeed]
    rcases Tokenizer.outcome_complete_of_drain _ hawaits pieces.flatten with
      ⟨e, hstop, hout⟩ | ⟨hstop, hawaits', hout⟩
    · rw [hstop, hout]
      exact ⟨rfl, rfl⟩
    · have hrest := ih r' ((r.feed piece).tokenizer.drain.1.foldl step s) (hr' ▸ hawaits')
      rw [hstop, hout]
      simpa [hr', Tokenizer.prepend, List.foldl_append] using hrest

end Fold

/-- A file is folded like the list of events of its bytes, whatever the size of the chunks. -/
lemma foldBytes_eq_complete {σ : Type} (step : σ → Event → σ) (config : StreamConfig)
    (bytes : List UInt8) (s : σ) (h : bytes.length ≤ config.maxTokenBytes) :
    (foldBytes (fun s e _ => step s e) config bytes s).1 =
        ((Tokenizer.limited config.maxTokenBytes).complete bytes).outcome.1.foldl step s ∧
      (foldBytes (fun s e _ => step s e) config bytes s).2.2 =
        outcomeOf ((Tokenizer.limited config.maxTokenBytes).complete bytes).outcome.2 := by
  have hfold := foldPieces_eq_complete step (start config) s (chunks config.chunkSize bytes)
    (by rw [flatten_chunks]; exact Tokenizer.awaits_limited h)
  rwa [flatten_chunks] at hfold

end Reading

/-! ### Independence of the pieces -/

/-- Two ways of handing over the same bytes give the same events in total and end alike, at the end of
the document or with the same fault at the same place; and a reader of a file gives these events and
ends in this way whatever the size of its chunks. -/
theorem follow_eq_follow_of_fed_eq (m : Nat) (calls calls' : List Tokenizer.Call)
    (hfed : Tokenizer.fed calls = Tokenizer.fed calls') (hm : (Tokenizer.fed calls).length ≤ m) :
    (Tokenizer.limited m).follow calls = (Tokenizer.limited m).follow calls' ∧
      (((Tokenizer.limited m).follow calls).2 = .finished ∨
        ∃ e, ((Tokenizer.limited m).follow calls).2 = .error e) ∧
      ∀ {σ : Type} (step : σ → Event → σ) (s : σ) (config : StreamConfig),
        config.maxTokenBytes = m →
        (Reading.foldBytes (fun s e _ => step s e) config (Tokenizer.fed calls) s).1 =
            ((Tokenizer.limited m).follow calls).1.foldl step s ∧
          (Reading.foldBytes (fun s e _ => step s e) config (Tokenizer.fed calls) s).2.2 =
            Reading.outcomeOf ((Tokenizer.limited m).follow calls).2 := by
  have hcalls := Tokenizer.follow_eq_complete _ calls (Tokenizer.awaits_limited hm)
  have hcalls' := Tokenizer.follow_eq_complete _ calls' (Tokenizer.awaits_limited (hfed ▸ hm))
  refine ⟨?_, ?_, ?_⟩
  · rw [hcalls, hcalls', hfed]
  · rw [hcalls]
    exact Tokenizer.outcome_of_ended _ rfl
  · rintro σ step s config rfl
    rw [hcalls]
    exact Reading.foldBytes_eq_complete step config _ s hm

/-- The text `[1]`, cut inside the array and pulled in between, or cut behind the number. -/
theorem follow_array_in_pieces :
    Tokenizer.fed [.feed [0x5b], .pull, .pull, .feed [0x31, 0x5d]] =
        Tokenizer.fed [.feed [0x5b, 0x31], .pull, .pull, .feed [0x5d]] ∧
      (Tokenizer.fed [.feed [0x5b], .pull, .pull, .feed [0x31, 0x5d]]).length ≤ 3 ∧
      (Tokenizer.limited 3).follow [.feed [0x5b], .pull, .pull, .feed [0x31, 0x5d]] =
        (Tokenizer.limited 3).follow [.feed [0x5b, 0x31], .pull, .pull, .feed [0x5d]] :=
  ⟨rfl, by decide, (follow_eq_follow_of_fed_eq 3 _ _ rfl (by decide)).1⟩

end EntityDump
