import EntityDump.Proofs.Tokenizer.Lexing
/-!
# The outcome of a run

`Tokenizer.outcome` is what a caller sees of a run over the bytes at hand: the events and why there are no
more. One pull decides how it begins (`outcome_of_event`, `outcome_of_needMore`, `outcome_of_finished`,
`outcome_of_error`), so that two tokenizers whose pulls agree have the same outcome (`outcome_congr`).
`fold_eq_foldl` reduces a fold over a run to a fold over the list of its events.
-/

namespace EntityDump.Tokenizer

open Json (Event)

/-! ### Draining, one pull at a time -/

/-- The events that the bytes at hand give, and why there are no more. -/
def outcome (t : Tokenizer) : List Event × Stop :=
  (t.drain.1, t.drain.2.2)

/-- Events that come before those of an outcome. -/
def prepend (events : List Event) (r : List Event × Stop) : List Event × Stop :=
  (events ++ r.1, r.2)

/-- Events in front of events in front of an outcome. -/
@[simp] lemma prepend_prepend (events events' : List Event) (r : List Event × Stop) :
    prepend events (prepend events' r) = prepend (events ++ events') r := by
  simp [prepend]

/-- To prove something of every tokenizer, prove it when no event is at hand, and for the tokenizer
before an event from the one behind it. -/
@[elab_as_elim]
theorem pull_induction {motive : Tokenizer → Prop}
    (event : ∀ t e t', t.pull = .ok (.event e, t') → motive t' → motive t)
    (stop : ∀ t, (∀ e t', t.pull ≠ .ok (.event e, t')) → motive t) (t : Tokenizer) : motive t := by
  induction hn : t.buffer.length using Nat.strongRecOn generalizing t with
  | _ n ih =>
    by_cases h : ∃ e t', t.pull = .ok (.event e, t')
    · obtain ⟨e, t', h⟩ := h
      have hlt : t'.buffer.length < n := hn ▸ length_buffer_of_event h
      exact event t e t' h (ih _ hlt t' rfl)
    · push Not at h
      exact stop t h

section Fold

variable {σ : Type} (step : σ → Event → Tokenizer → σ) {t t' : Tokenizer} {s : σ}

/-- An event is folded in before those behind it. -/
lemma fold_of_event {e : Event} (h : t.pull = .ok (.event e, t')) :
    t.fold step s = t'.fold step (step s e t') := by
  rw [fold]
  split <;> simp_all

/-- Without an event the state stays. -/
lemma fold_of_needMore (h : t.pull = .ok (.needMore, t')) :
    t.fold step s = (s, t', .needMore) := by
  rw [fold]
  split <;> simp_all

/-- At the end of the text the state stays. -/
lemma fold_of_finished (h : t.pull = .ok (.finished, t')) :
    t.fold step s = (s, t', .finished) := by
  rw [fold]
  split <;> simp_all

/-- At a fault the state stays. -/
lemma fold_of_error {e : TokenError} (h : t.pull = .error e) :
    t.fold step s = (s, t, .error e) := by
  rw [fold]
  split <;> simp_all

/-- Without an event a fold leaves the state as it is and stops as any other fold. -/
lemma fold_of_stop (h : ∀ e t', t.pull ≠ .ok (.event e, t')) :
    ∃ t' stop, ∀ {τ : Type} (step : τ → Event → Tokenizer → τ) (s : τ),
      t.fold step s = (s, t', stop) := by
  rcases hp : t.pull with e | ⟨e | _ | _, t'⟩
  · exact ⟨t, .error e, fun step _ => fold_of_error step hp⟩
  · exact absurd hp (h e t')
  · exact ⟨t', .needMore, fun step _ => fold_of_needMore step hp⟩
  · exact ⟨t', .finished, fun step _ => fold_of_finished step hp⟩

end Fold

/-- A fold that looks at the events alone is a fold over their list. -/
theorem fold_eq_foldl {σ : Type} (step : σ → Event → σ) (t : Tokenizer) (s : σ) :
    t.fold (fun s e _ => step s e) s = (t.drain.1.foldl step s, t.drain.2) := by
  -- The list is collected in reverse, so the claim is first made of a list begun before.
  have h : ∀ (t : Tokenizer) (s : σ) (acc : List Event),
      t.fold (fun s e _ => step s e) (acc.reverse.foldl step s) =
        ((t.fold (fun acc e _ => e :: acc) acc).1.reverse.foldl step s,
          (t.fold (fun acc e _ => e :: acc) acc).2) := by
    intro t s acc
    induction t using pull_induction generalizing acc with
    | event t e t' h ih =>
      rw [fold_of_event _ h, fold_of_event _ h, ← ih (e :: acc)]
      simp
    | stop t h =>
      obtain ⟨t', stop, hs⟩ := fold_of_stop h
      rw [hs, hs]
  exact h t s []

/-- The list of events begins with the one that is pulled. -/
lemma drain_of_event {t t' : Tokenizer} {e : Event} (h : t.pull = .ok (.event e, t')) :
    t.drain = (e :: t'.drain.1, t'.drain.2) := by
  have ht := fold_eq_foldl (fun acc e => e :: acc) t []
  rw [fold_of_event _ h, fold_eq_foldl] at ht
  simp only [List.foldl_flip_cons_eq_append', List.append_nil, Prod.mk.injEq] at ht
  refine Prod.ext ?_ ht.2.symm
  simpa using congrArg List.reverse ht.1.symm

/-! ### Outcomes -/

section Outcome

variable {t t' : Tokenizer}

/-- An event comes first, then the outcome behind it. -/
lemma outcome_of_event {e : Event} (h : t.pull = .ok (.event e, t')) :
    t.outcome = prepend [e] t'.outcome := by
  simp [outcome, drain_of_event h, prepend]

/-- Bytes that do not suffice for an event give none. -/
lemma outcome_of_needMore (h : t.pull = .ok (.needMore, t')) : t.outcome = ([], .needMore) := by
  simp [outcome, drain, fold_of_needMore _ h]

/-- The end of the text gives no event. -/
lemma outcome_of_finished (h : t.pull = .ok (.finished, t')) : t.outcome = ([], .finished) := by
  simp [outcome, drain, fold_of_finished _ h]

/-- A fault gives no event. -/
lemma outcome_of_error {e : TokenError} (h : t.pull = .error e) : t.outcome = ([], .error e) := by
  simp [outcome, drain, fold_of_error _ h]

/-- What one pull gives decides the outcome. -/
lemma outcome_congr (h : t.pull = t'.pull) : t.outcome = t'.outcome := by
  rcases hp : t'.pull with e | ⟨e | _ | _, u⟩
  · rw [outcome_of_error (h.trans hp), outcome_of_error hp]
  · rw [outcome_of_event (h.trans hp), outcome_of_event hp]
  · rw [outcome_of_needMore (h.trans hp), outcome_of_needMore hp]
  · rw [outcome_of_finished (h.trans hp), outcome_of_finished hp]

/-- At the end of the text a run is through or fails. -/
lemma outcome_of_ended (t : Tokenizer) (hended : t.ended = true) :
    t.outcome.2 = .finished ∨ ∃ e, t.outcome.2 = .error e := by
  induction t using pull_induction with
  | event t e t' h ih =>
    rw [outcome_of_event h]
    exact ih ((advances_of_pull h).ended.trans hended)
  | stop t hstop =>
    rcases hp : t.pull with e | ⟨e | _ | _, t'⟩
    · exact .inr ⟨e, by rw [outcome_of_error hp]⟩
    · exact absurd hp (hstop e t')
    · exact absurd hp (pull_ne_needMore hended)
    · exact .inl (by rw [outcome_of_finished hp])

end Outcome

end EntityDump.Tokenizer
