import EntityDump.Proofs.Tokenizer.Faults
import EntityDump.Reading
/-!
# The steps of a reader

A reader pulls at its tokenizer. An event is given to the caller, and when the bytes at hand do not suffice a piece
of the file is read, at most a chunk, or the end of the file is found (`Reader.Step`). A file is folded like the
events that such a reader gives (`exists_run_of_foldPieces`).

What was read before and what is at hand is all there is (`Reader.IsReading`), so that a reader of a file cannot go
on forever: every event uses a byte, and every read but the last one brings one (`reading_ends`).
-/

namespace EntityDump

open Json (Event)

namespace Reading

/-- Behind an event. -/
def behind (r : Reading) (t : Tokenizer) : Reading :=
  { r with tokenizer := t, events := r.events + 1 }

section Fold

variable {σ : Type} (step : σ → Event → Reading → σ) {r : Reading} {t : Tokenizer} {s : σ}

/-- An event is folded in before those behind it. -/
lemma fold_of_event {e : Event} (h : r.tokenizer.pull = .ok (.event e, t)) :
    fold step r s = fold step (r.behind t) (step s e (r.behind t)) := by
  unfold fold
  rw [Tokenizer.fold_of_event _ h]
  rfl

/-- A fold stops where more bytes are needed. -/
lemma fold_of_needMore (h : r.tokenizer.pull = .ok (.needMore, t)) :
    fold step r s = (s, { r with tokenizer := t }, .needMore) := by
  rw [fold, Tokenizer.fold_of_needMore _ h]

/-- A fold stops where the document is complete. -/
lemma fold_of_finished (h : r.tokenizer.pull = .ok (.finished, t)) :
    fold step r s = (s, { r with tokenizer := t }, .finished) := by
  rw [fold, Tokenizer.fold_of_finished _ h]

/-- A fold stops at a fault. -/
lemma fold_of_error {e : TokenError} (h : r.tokenizer.pull = .error e) :
    fold step r s = (s, r, .error e) := by
  rw [fold, Tokenizer.fold_of_error _ h]

/-! What the fold over a piece comes to decides how that over all pieces goes on. -/

variable {r' : Reading} {s' : σ}

/-- Behind the last piece the text ends. -/
lemma foldPieces_nil {stop : Tokenizer.Stop} (h : fold step r.finish s = (s', r', stop)) :
    foldPieces step [] r s = (s', r', outcomeOf stop) := by
  rw [foldPieces, h]
  cases stop <;> rfl

/-- A piece that is used up is followed by the next. -/
lemma foldPieces_of_needMore {piece : List UInt8} (h : fold step (r.feed piece) s = (s', r', .needMore))
    (pieces : List (List UInt8)) : foldPieces step (piece :: pieces) r s = foldPieces step pieces r' s' := by
  rw [foldPieces, h]

/-- Behind a fault no piece is read. -/
lemma foldPieces_of_error {piece : List UInt8} {e : TokenError}
    (h : fold step (r.feed piece) s = (s', r', .error e)) (pieces : List (List UInt8)) :
    foldPieces step (piece :: pieces) r s = (s', r', .error e) := by
  rw [foldPieces, h]

end Fold

/-- A chunk is not empty, and no longer than it should be. -/
lemma length_of_mem_chunks {size : Nat} {bytes chunk : List UInt8} (h : chunk ∈ chunks size bytes) :
    chunk ≠ [] ∧ chunk.length ≤ max size 1 := by
  fun_induction chunks size bytes with
  | case1 => cases h
  | case2 b rest ih =>
    rcases List.mem_cons.1 h with rfl | h
    · exact ⟨by simp, List.length_take_le _ _⟩
    · exact ih h

end Reading

/-- A reader of a file: how far it is, and the bytes of the file that it has not read. -/
structure Reader where
  reading : Reading
  unread : List UInt8
  /-- The number of reads, with the one that found the end of the file. -/
  reads : Nat := 0
  /-- The events so far, each with how far the file had been read behind it. -/
  given : List (Event × Reading) := []

namespace Reader

/-- A reader at the beginning of a file. -/
def start (config : StreamConfig) (bytes : List UInt8) : Reader where
  reading := .start config
  unread := bytes

/-- The reader behind an event. -/
def give (x : Reader) (e : Event) (t : Tokenizer) : Reader :=
  { x with reading := x.reading.behind t, given := x.given ++ [(e, x.reading.behind t)] }

/-- The reader behind a piece of the file, with what is left of the file. -/
def read (x : Reader) (t : Tokenizer) (piece rest : List UInt8) : Reader :=
  { x with reading := { x.reading with tokenizer := t }.feed piece, unread := rest, reads := x.reads + 1 }

/-- The reader behind the end of the file. -/
def finish (x : Reader) (t : Tokenizer) : Reader :=
  { x with reading := { x.reading with tokenizer := t }.finish, reads := x.reads + 1 }

/-- One step of a reader whose chunks have the given size, zero counting as one. A read may bring less than a
chunk. -/
inductive Step (size : Nat) (x : Reader) : Reader → Prop
  | event {e : Event} {t : Tokenizer} : x.reading.tokenizer.pull = .ok (.event e, t) → Step size x (x.give e t)
  | read {t : Tokenizer} {piece rest : List UInt8} : x.reading.tokenizer.pull = .ok (.needMore, t) →
      x.unread = piece ++ rest → piece ≠ [] → piece.length ≤ max size 1 → Step size x (x.read t piece rest)
  | finish {t : Tokenizer} : x.reading.tokenizer.pull = .ok (.needMore, t) → x.unread = [] →
      Step size x (x.finish t)

/-- A reader gets from one point to another in some number of steps. -/
inductive Run (size : Nat) (x : Reader) : Nat → Reader → Prop
  | refl : Run size x 0 x
  | step {n : Nat} {y z : Reader} : Run size x n y → Step size y z → Run size x (n + 1) z

/-- The reader reports the end of the document, or a fault. -/
inductive Reports (x : Reader) : Reading → Outcome → Prop
  | finished {t : Tokenizer} : x.reading.tokenizer.pull = .ok (.finished, t) →
      Reports x { x.reading with tokenizer := t } (.ok ())
  | fault {e : TokenError} : x.reading.tokenizer.pull = .error e → Reports x x.reading (.error e)

variable {size m n : Nat} {x y z : Reader} {t t' : Tokenizer} {e : Event} {config : StreamConfig}
  {bytes : List UInt8}

/-! ### Steps -/

lemma Run.trans (h : Run size x m y) (h' : Run size y n z) : Run size x (m + n) z := by
  induction h' with
  | refl => exact h
  | step _ hstep ih => exact ih.step hstep

/-- A step gives an event or is a read. -/
lemma Step.count (h : Step size x y) : y.given.length + y.reads = x.given.length + x.reads + 1 := by
  cases h with
  | event => simp only [give, List.length_append, List.length_singleton]; omega
  | read | finish => rfl

/-- Every step gives an event or reads. -/
lemma Run.count (h : Run size x n y) : y.given.length + y.reads = x.given.length + x.reads + n := by
  induction h with
  | refl => rfl
  | step _ hstep ih => rw [hstep.count, ih, Nat.add_assoc]

/-- A reader that does not report goes on. -/
lemma step_or_reports (size : Nat) (x : Reader) : (∃ y, Step size x y) ∨ ∃ r outcome, x.Reports r outcome := by
  rcases hp : x.reading.tokenizer.pull with e | ⟨e | _ | _, t⟩
  · exact .inr ⟨_, _, .fault hp⟩
  · exact .inl ⟨_, .event hp⟩
  · left
    cases hunread : x.unread with
    | nil => exact ⟨_, .finish hp hunread⟩
    | cons b rest =>
      exact ⟨_, @Step.read size x t [b] rest hp hunread (List.cons_ne_nil b []) (Nat.le_max_right size 1)⟩
  · exact .inr ⟨_, _, .finished hp⟩

/-! ### Where a reader of a file is -/

/-- A reader of a file has handed what it read to its tokenizer. -/
structure IsReading (maxTokenBytes : Nat) (bytes : List UInt8) (x : Reader) : Prop where
  fed : ∃ fed, Tokenizer.IsFed maxTokenBytes x.reading.tokenizer fed ∧ fed ++ x.unread = bytes
  unread_eq_nil : x.reading.tokenizer.ended = true → x.unread = []
  /-- Every event has used a byte. -/
  given_le : x.given.length ≤ x.reading.tokenizer.offset
  /-- Every read has left less to read, besides the one that found the end. -/
  reads_le : x.reads + x.unread.length ≤ bytes.length + x.reading.tokenizer.ended.toNat

/-- At the beginning of a file nothing is read. -/
lemma isReading_start (config : StreamConfig) (bytes : List UInt8) :
    IsReading config.maxTokenBytes bytes (start config bytes) :=
  ⟨⟨[], .start, rfl⟩, nofun, Nat.le_refl _, Nat.le_of_eq (Nat.zero_add _)⟩

/-- A step keeps a reader inside its file. -/
lemma IsReading.step {maxTokenBytes : Nat} (h : IsReading maxTokenBytes bytes x) (hstep : Step size x y) :
    IsReading maxTokenBytes bytes y := by
  obtain ⟨fed, hfed, hbytes⟩ := h.fed
  have hreads := h.reads_le
  have hgiven := h.given_le
  -- An event has used a byte; a read takes one from the file, and that of its end is counted by `ended`.
  cases hstep with
  | @event e t hp =>
    have hended : t.ended = x.reading.tokenizer.ended := (Tokenizer.advances_of_pull hp).ended
    refine ⟨⟨fed, hfed.pull hp, hbytes⟩, fun h' => h.unread_eq_nil (hended ▸ h'), ?_, hended ▸ hreads⟩
    have hlt := (Tokenizer.offset_lt_of_event hp).1
    simp only [give, Reading.behind, List.length_append, List.length_singleton]
    omega
  | @read t piece rest hp hunread hne hpiece =>
    have hadv := Tokenizer.advances_of_pull hp
    have hopen : t.ended = false := hadv.ended.trans (Tokenizer.waits_of_needMore hp).2.1
    refine ⟨⟨fed ++ piece, (hfed.pull hp).feed piece, ?_⟩, ?_, ?_, ?_⟩
    · rw [← hbytes, hunread, List.append_assoc]
      rfl
    · intro h'
      exact absurd (hopen.symm.trans h') nofun
    · exact Nat.le_trans hgiven hadv.offset_le
    · have hpos := List.length_pos_iff.2 hne
      have hsame : (x.read t piece rest).reading.tokenizer.ended = x.reading.tokenizer.ended := hadv.ended
      rw [hunread, List.length_append] at hreads
      rw [hsame]
      simp only [Reader.read]
      omega
  | @finish t hp hunread =>
    have hadv := Tokenizer.advances_of_pull hp
    have hopen : x.reading.tokenizer.ended = false := (Tokenizer.waits_of_needMore hp).2.1
    refine ⟨⟨fed, (hfed.pull hp).finish, hbytes⟩, fun _ => hunread, Nat.le_trans hgiven hadv.offset_le, ?_⟩
    rw [hopen] at hreads
    simp only [Reader.finish, Reading.finish, Tokenizer.finish, Bool.toNat_true, Bool.toNat_false] at hreads ⊢
    omega

/-- Wherever a reader of a file gets, it is inside the file. -/
lemma Run.isReading (h : Run size (start config bytes) n x) : IsReading config.maxTokenBytes bytes x := by
  induction h with
  | refl => exact isReading_start config bytes
  | step _ hstep ih => exact ih.step hstep

/-- No event without a byte of the file, and no more reads than bytes, besides the one that finds the end. -/
lemma IsReading.length_given_le {maxTokenBytes : Nat} (h : IsReading maxTokenBytes bytes x) :
    x.given.length ≤ bytes.length ∧ x.reads ≤ bytes.length + 1 := by
  obtain ⟨fed, hfed, hbytes⟩ := h.fed
  obtain ⟨used, hused⟩ := hfed.exists_hasUsed
  have hoffset := hused.offset_add_buffered
  have hlength := congrArg List.length hbytes
  rw [List.length_append] at hlength
  have hgiven := h.given_le
  have hreads := h.reads_le
  have hended := Bool.toNat_le x.reading.tokenizer.ended
  omega

/-! ### Folding a file takes the steps of a reader -/

/-- No event is at hand, for the reason that a fold gives. -/
inductive Stops (x : Reader) : Reading → Tokenizer.Stop → Prop
  | needMore {t : Tokenizer} : x.reading.tokenizer.pull = .ok (.needMore, t) →
      Stops x { x.reading with tokenizer := t } .needMore
  | finished {t : Tokenizer} : x.reading.tokenizer.pull = .ok (.finished, t) →
      Stops x { x.reading with tokenizer := t } .finished
  | error {e : TokenError} : x.reading.tokenizer.pull = .error e → Stops x x.reading (.error e)

/-- A state folded with the events that were given. -/
def foldGiven {σ : Type} (step : σ → Event → Reading → σ) (given : List (Event × Reading)) (s : σ) : σ :=
  given.foldl (fun s p => step s p.1 p.2) s

/-- A fold over the bytes at hand is one over the events that a reader gives without reading. -/
lemma exists_run_of_fold (size : Nat) (x : Reader) :
    ∃ n y given r stop, Run size x n y ∧ y.given = x.given ++ given ∧ y.unread = x.unread ∧
      y.reading.tokenizer.ended = x.reading.tokenizer.ended ∧ y.Stops r stop ∧
      ∀ {σ : Type} (step : σ → Event → Reading → σ) (s : σ),
        Reading.fold step x.reading s = (foldGiven step given s, r, stop) := by
  induction ht : x.reading.tokenizer using Tokenizer.pull_induction generalizing x with
  | event t e t' hp ih =>
    subst ht
    obtain ⟨n, y, given, r, stop, hrun, hgiven, hunread, hended, hstops, hfold⟩ := ih (x.give e t') rfl
    have hevent : Run size x 1 (x.give e t') := Run.refl.step (.event hp)
    refine ⟨_, y, (e, x.reading.behind t') :: given, r, stop, hevent.trans hrun, ?_, hunread, ?_, hstops, ?_⟩
    · rw [hgiven, give, List.append_assoc, List.singleton_append]
    · exact hended.trans (Tokenizer.advances_of_pull hp).ended
    · intro σ step s
      rw [Reading.fold_of_event step hp]
      exact hfold step _
  | stop t hstop =>
    subst ht
    rcases hp : x.reading.tokenizer.pull with e | ⟨e | _ | _, t⟩
    · exact ⟨0, x, [], _, _, .refl, by simp, rfl, rfl, .error hp, fun step _ => Reading.fold_of_error step hp⟩
    · exact absurd hp (hstop e t)
    · exact ⟨0, x, [], _, _, .refl, by simp, rfl, rfl, .needMore hp,
        fun step _ => Reading.fold_of_needMore step hp⟩
    · exact ⟨0, x, [], _, _, .refl, by simp, rfl, rfl, .finished hp,
        fun step _ => Reading.fold_of_finished step hp⟩

/-- A fold over the pieces that are left is one over the events that a waiting reader gives to its end. -/
lemma exists_run_of_foldPieces (pieces : List (List UInt8)) (hp : x.reading.tokenizer.pull = .ok (.needMore, t))
    (hunread : x.unread = pieces.flatten) (hsize : ∀ piece ∈ pieces, piece ≠ [] ∧ piece.length ≤ max size 1) :
    ∃ n y given r outcome, Run size x n y ∧ y.given = x.given ++ given ∧ y.Reports r outcome ∧
      ∀ {σ : Type} (step : σ → Event → Reading → σ) (s : σ),
        Reading.foldPieces step pieces { x.reading with tokenizer := t } s =
          (foldGiven step given s, r, outcome) := by
  -- Each piece is a read, and the events up to the next one are a fold over the bytes at hand.
  induction pieces generalizing x t with
  | nil =>
    have hfinish : Run size x 1 (x.finish t) := Run.refl.step (.finish hp hunread)
    obtain ⟨n, y, given, r, stop, hrun, hgiven, -, hended, hstops, hfold⟩ :=
      exists_run_of_fold size (x.finish t)
    -- The reader knows now that the file is at its end, and cannot wait any more.
    have hclosed : y.reading.tokenizer.ended = true := hended
    have hrun := hfinish.trans hrun
    have hfolds {σ : Type} (step : σ → Event → Reading → σ) (s : σ) := Reading.foldPieces_nil step (hfold step s)
    cases hstops with
    | needMore hp' => exact absurd hp' (Tokenizer.pull_ne_needMore hclosed)
    | finished hp' => exact ⟨_, y, given, _, _, hrun, hgiven, .finished hp', hfolds⟩
    | error hp' => exact ⟨_, y, given, _, _, hrun, hgiven, .fault hp', hfolds⟩
  | cons piece pieces ih =>
    obtain ⟨hpiece, hsize⟩ := List.forall_mem_cons.1 hsize
    have hread : Run size x 1 (x.read t piece pieces.flatten) :=
      Run.refl.step (.read hp hunread hpiece.1 hpiece.2)
    obtain ⟨n, y, given, r, stop, hrun, hgiven, hunread', hended, hstops, hfold⟩ :=
      exists_run_of_fold size (x.read t piece pieces.flatten)
    have hopen : t.ended = false :=
      (Tokenizer.advances_of_pull hp).ended.trans (Tokenizer.waits_of_needMore hp).2.1
    have hrun := hread.trans hrun
    cases hstops with
    | needMore hp' =>
      obtain ⟨n', z, given', r, outcome, hrun', hgiven', hreports, hfold'⟩ := ih hp' hunread' hsize
      refine ⟨_, z, given ++ given', r, outcome, hrun.trans hrun', ?_, hreports, fun step s => ?_⟩
      · rw [hgiven', hgiven, List.append_assoc]
        rfl
      · rw [Reading.foldPieces_of_needMore step (hfold step s), hfold', foldGiven, foldGiven, foldGiven,
          List.foldl_append]
    | finished hp' => exact absurd hp' (Tokenizer.pull_ne_finished (hended.trans hopen))
    | error hp' =>
      exact ⟨_, y, given, _, _, hrun, hgiven, .fault hp',
        fun step s => Reading.foldPieces_of_error step (hfold step s) pieces⟩

/-- Reading ends. At the end of its text no pull waits, whatever was fed before, and an event always uses bytes at
hand. So a reader of a file gives at most an event for each byte, and reads at most once for each byte and once
more for the end. These are all its steps, and where it takes none it reports. Folding a file follows such a run
to its report. -/
theorem reading_ends (config : StreamConfig) (bytes : List UInt8) :
    (∀ t t' : Tokenizer, t.ended = true → t.pull ≠ .ok (.needMore, t')) ∧
      (∀ (t t' : Tokenizer) (e : Event), t.pull = .ok (.event e, t') →
        t.offset < t'.offset ∧ t'.offset + t'.buffered = t.offset + t.buffered) ∧
      (∀ n x, Run config.chunkSize (start config bytes) n x →
        x.given.length ≤ bytes.length ∧ x.reads ≤ bytes.length + 1 ∧ n = x.given.length + x.reads ∧
          ((∃ y, Step config.chunkSize x y) ∨ ∃ r outcome, x.Reports r outcome)) ∧
      ∃ n x r outcome, Run config.chunkSize (start config bytes) n x ∧ x.Reports r outcome ∧
        ∀ {σ : Type} (step : σ → Event → Reading → σ) (s : σ),
          Reading.foldBytes step config bytes s = (foldGiven step x.given s, r, outcome) := by
  refine ⟨fun t t' => Tokenizer.pull_ne_needMore, fun t t' e => Tokenizer.offset_lt_of_event, ?_, ?_⟩
  · intro n x hrun
    obtain ⟨hgiven, hreads⟩ := hrun.isReading.length_given_le
    have hcount := hrun.count
    exact ⟨hgiven, hreads, by simpa [start] using hcount.symm, step_or_reports _ _⟩
  · have hstart : (start config bytes).reading.tokenizer.pull = .ok (.needMore, (Reading.start config).tokenizer) :=
      rfl
    obtain ⟨n, x, given, r, outcome, hrun, hgiven, hreports, hfold⟩ :=
      exists_run_of_foldPieces (chunks config.chunkSize bytes) hstart (flatten_chunks _ _).symm
        fun _ => Reading.length_of_mem_chunks
    obtain rfl : x.given = given := hgiven
    exact ⟨n, x, r, outcome, hrun, hreports, hfold⟩

/-- A file that ends inside an array: an event, two reads, and the fault at its end. -/
theorem reading_ends_of_open_array (config : StreamConfig) :
    ∃ n x r, Run config.chunkSize (start config [0x5b]) n x ∧ n = 3 ∧ x.given.length ≤ 1 ∧ x.reads ≤ 2 ∧
      x.Reports r (.error ⟨1, .endOfInput⟩) := by
  let t : Tokenizer := Tokenizer.limited config.maxTokenBytes
  let u : Tokenizer := { t with offset := 1, stack := [.array], expect := .firstValue }
  have hstart : t.pull = .ok (.needMore, t) := rfl
  have hopen : (t.feed [0x5b]).pull = .ok (.event .arrayStart, u) := rfl
  have hinside : u.pull = .ok (.needMore, u) := rfl
  have hend : u.finish.pull = .error ⟨1, .endOfInput⟩ := rfl
  have hread : Run config.chunkSize (start config [0x5b]) 1 ((start config [0x5b]).read t [0x5b] []) :=
    Run.refl.step (.read hstart rfl nofun (Nat.le_max_right _ _))
  have hfinish := (hread.step (.event hopen)).step (.finish hinside rfl)
  obtain ⟨hgiven, hreads, -⟩ := (reading_ends config [0x5b]).2.2.1 _ _ hfinish
  exact ⟨_, _, _, hfinish, rfl, hgiven, hreads, .fault hend⟩

end Reader

end EntityDump
