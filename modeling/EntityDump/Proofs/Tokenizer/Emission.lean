import EntityDump.Proofs.Json.Nesting
import EntityDump.Proofs.Tokenizer.Pieces
import EntityDump.Proofs.Tokenizer.Position
/-!
# The events so far

Wherever a run is interrupted, the tokenizer stands at a place of a document that its events lead to
(`Emits.exists_standsAt`), also when the rest of the text turns out malformed. Its stack holds the kinds
of the containers that are open there, and it expects what may come next there (`Place.Allows`). Blanks
and separators keep it at that place (`StandsAt.skipSeparator`), an event leads it to the next one
(`StandsAt.of_pull`).
-/

namespace EntityDump

open Json (Event Scalar Document)

/-- What a tokenizer may expect at a place. In front of an item or behind a key it need not have seen the
comma or the colon. -/
inductive Place.Allows : Place → Expect → Prop
  | value (holes : List Hole) : Allows (awaiting holes) .value
  | firstValue (before : List Document) (holes : List Hole) :
    Allows (awaiting (.item before :: holes)) .firstValue
  | comma (before : List Document) (holes : List Hole) :
    Allows (awaiting (.item before :: holes)) .commaOrClose
  | colon (before : List (String × Document)) (key : String) (holes : List Hole) :
    Allows (awaiting (.field before key :: holes)) .colon
  | firstKey (before : List (String × Document)) (holes : List Hole) : Allows (inObject before holes) .firstKey
  | key (before : List (String × Document)) (holes : List Hole) : Allows (inObject before holes) .key
  | commaInObject (before : List (String × Document)) (holes : List Hole) :
    Allows (inObject before holes) .commaOrClose
  | finished (d : Document) : Allows (complete d) .finished

namespace Place.Allows

variable {p : Place} {expect : Expect} {kind : Container} {stack : List Container}

/-- A value is expected in front of one. -/
lemma awaiting_of_mayHold (h : p.Allows expect) (hexpect : Container.array.MayHold expect) :
    ∃ holes, p = .awaiting holes := by
  cases h with
  | value holes | firstValue _ holes => exact ⟨_, rfl⟩
  | comma | colon | firstKey | key | commaInObject | finished => simp at hexpect

/-- A key is expected inside an object. -/
lemma inObject_of_mayHold (h : p.Allows expect) (hexpect : Container.object.MayHold expect) :
    ∃ before holes, p = .inObject before holes := by
  cases h with
  | firstKey before holes | key before holes => exact ⟨before, holes, rfl⟩
  | value | firstValue | comma | colon | commaInObject | finished => simp at hexpect

/-- A container closes behind its items or its fields. -/
lemma cases_of_closing (h : p.Allows expect) (hstack : stack = p.slots.map Slot.kind)
    (hexpect : expect = kind.expectFirst ∨ (expect = .commaOrClose ∧ stack.head? = some kind)) :
    (kind = .array ∧ ∃ before holes, p = .awaiting (.item before :: holes)) ∨
      (kind = .object ∧ ∃ before holes, p = .inObject before holes) := by
  subst hstack
  cases h with
  | firstValue before holes | comma before holes =>
    have hkind : kind = .array := by
      rcases hexpect with hexpect | ⟨-, hhead⟩
      · cases kind <;> simp at hexpect ⊢
      · exact (Option.some.inj hhead).symm
    exact .inl ⟨hkind, before, holes, rfl⟩
  | firstKey before holes | commaInObject before holes =>
    have hkind : kind = .object := by
      rcases hexpect with hexpect | ⟨-, hhead⟩
      · cases kind <;> simp at hexpect ⊢
      · exact (Option.some.inj hhead).symm
    exact .inr ⟨hkind, before, holes, rfl⟩
  | value | colon | key | finished => cases kind <;> simp at hexpect

end Place.Allows

namespace Tokenizer

/-- The tokenizer has read up to a place of a document. -/
structure StandsAt (t : Tokenizer) (p : Place) : Prop where
  stack : t.stack = p.slots.map Slot.kind
  expect : p.Allows t.expect

/-- A tokenizer that was fed and pulled at in any order, and the events that it gave. -/
inductive Emits (maxTokenBytes : Nat) : Tokenizer → List Event → Prop
  | start : Emits maxTokenBytes (limited maxTokenBytes) []
  | feed {t : Tokenizer} {events : List Event} (h : Emits maxTokenBytes t events) (piece : List UInt8) :
    Emits maxTokenBytes (t.feed piece) events
  | finish {t : Tokenizer} {events : List Event} (h : Emits maxTokenBytes t events) :
    Emits maxTokenBytes t.finish events
  | event {t t' : Tokenizer} {events : List Event} {e : Event} (h : Emits maxTokenBytes t events)
    (hp : t.pull = .ok (.event e, t')) : Emits maxTokenBytes t' (events ++ [e])
  | needMore {t t' : Tokenizer} {events : List Event} (h : Emits maxTokenBytes t events)
    (hp : t.pull = .ok (.needMore, t')) : Emits maxTokenBytes t' events
  | finished {t t' : Tokenizer} {events : List Event} (h : Emits maxTokenBytes t events)
    (hp : t.pull = .ok (.finished, t')) : Emits maxTokenBytes t' events

/-! ### From place to place -/

section StandsAt

variable {t t' : Tokenizer} {p : Place} {e : Event} {token : List UInt8} {stack stack' : List Container}
  {expect expect' : Expect} {maxTokenBytes : Nat} {events : List Event}

lemma standsAt_limited (maxTokenBytes : Nat) : (limited maxTokenBytes).StandsAt (.awaiting []) :=
  ⟨rfl, .value []⟩

/-- A separator keeps the tokenizer at its place. -/
lemma StandsAt.allows_of_separator? {x : Expect} (h : t.StandsAt p) (hsep : t.separator? = some x) :
    p.Allows x := by
  obtain ⟨hstack, hallows⟩ := h
  rcases separator?_cases hsep with ⟨-, -, hexpect, rfl⟩ | ⟨-, kind, stack, -, hexpect, hkind, rfl⟩
  · rw [hexpect] at hallows
    cases hallows
    exact .value _
  · rw [hexpect] at hallows
    rw [hkind] at hstack
    cases hallows with
    | comma before holes =>
      obtain rfl : kind = .array := (List.cons.inj hstack).1
      exact .value _
    | commaInObject before holes =>
      obtain rfl : kind = .object := (List.cons.inj hstack).1
      exact .key before holes

/-- Blanks and separators keep the tokenizer at its place. -/
lemma StandsAt.skipSeparator (h : t.StandsAt p) : t.skipSeparator.StandsAt p := by
  have hblanks : t.skipBlanks.StandsAt p := ⟨h.stack, h.expect⟩
  cases hsep : t.skipBlanks.separator? with
  | none => rwa [skipSeparator_of_none hsep]
  | some x =>
    rw [skipSeparator_of_some hsep]
    exact ⟨hblanks.stack, hblanks.allows_of_separator? hsep⟩

/-- Behind a value the open containers are those around it. -/
lemma allows_behind (d : Document) (holes : List Hole) :
    (holes.map Hole.slot).map Slot.kind = (Place.behind d holes).slots.map Slot.kind ∧
      (Place.behind d holes).Allows (expectAfter ((holes.map Hole.slot).map Slot.kind)) := by
  cases holes with
  | nil => exact ⟨rfl, .finished d⟩
  | cons hole holes =>
    cases hole with
    | item before => exact ⟨rfl, .comma (before ++ [d]) holes⟩
    | field before key => exact ⟨rfl, .commaInObject (before ++ [(key, d)]) holes⟩

/-- The token that is read at a place leads to the next one. -/
lemma Takes.exists_place (h : Takes stack expect token e stack' expect') (hp : p.Allows expect)
    (hstack : stack = p.slots.map Slot.kind) :
    ∃ p', p.Takes e p' ∧ stack' = p'.slots.map Slot.kind ∧ p'.Allows expect' := by
  rcases h with ⟨kind, hexpect⟩ | @⟨_, s, hexpect, -⟩ | @⟨_, name, hexpect, -⟩ | ⟨kind, hexpect⟩
  · obtain ⟨holes, rfl⟩ := hp.awaiting_of_mayHold hexpect
    cases kind with
    | object => exact ⟨_, .objectStart holes, congrArg (Container.object :: ·) hstack, .firstKey [] holes⟩
    | array => exact ⟨_, .arrayStart holes, congrArg (Container.array :: ·) hstack, .firstValue [] holes⟩
  · obtain ⟨holes, rfl⟩ := hp.awaiting_of_mayHold hexpect
    subst hstack
    exact ⟨_, .scalar s holes, allows_behind (.scalar s) holes⟩
  · obtain ⟨before, holes, rfl⟩ := hp.inObject_of_mayHold hexpect
    exact ⟨_, .key before name holes, hstack, .colon before name holes⟩
  · rcases hp.cases_of_closing hstack hexpect with ⟨rfl, before, holes, rfl⟩ | ⟨rfl, before, holes, rfl⟩
    · subst hstack
      exact ⟨_, .arrayEnd before holes, allows_behind (.array before) holes⟩
    · subst hstack
      exact ⟨_, .objectEnd before holes, allows_behind (.object before) holes⟩

/-- An event leads a tokenizer to the next place. -/
lemma StandsAt.of_pull (h : t.StandsAt p) (hp : t.pull = .ok (.event e, t')) :
    ∃ p', p.Takes e p' ∧ t'.StandsAt p' := by
  have hskip := h.skipSeparator
  obtain ⟨token, -, -, htakes, -⟩ := token_of_event hp
  obtain ⟨p', hnext, hstack, hallows⟩ := htakes.exists_place hskip.expect hskip.stack
  exact ⟨p', hnext, hstack, hallows⟩

/-- A pull without an event keeps the tokenizer at its place. -/
lemma StandsAt.of_needMore (h : t.StandsAt p) (hp : t.pull = .ok (.needMore, t')) : t'.StandsAt p := by
  obtain ⟨rfl, -, -⟩ := waits_of_needMore hp
  exact h.skipSeparator

/-- A run comes to its end behind a document alone. -/
lemma StandsAt.of_finished (h : t.StandsAt p) (hp : t.pull = .ok (.finished, t')) :
    t'.StandsAt p ∧ ∃ d, p = .complete d := by
  obtain ⟨rfl, -, -, hexpect⟩ := ends_of_finished hp
  have hskip := h.skipSeparator
  have hallows := hskip.expect
  rw [hexpect] at hallows
  cases hallows with
  | finished d => exact ⟨hskip, d, rfl⟩

/-- The events so far lead to a place of a document, and there the tokenizer stands. -/
theorem Emits.exists_standsAt (h : Emits maxTokenBytes t events) :
    ∃ p, Place.Reached events p ∧ t.StandsAt p := by
  induction h with
  | start => exact ⟨_, .start, standsAt_limited maxTokenBytes⟩
  | feed h piece ih =>
    obtain ⟨p, hreached, ht⟩ := ih
    exact ⟨p, hreached, ht.stack, ht.expect⟩
  | finish h ih =>
    obtain ⟨p, hreached, ht⟩ := ih
    exact ⟨p, hreached, ht.stack, ht.expect⟩
  | event h hp ih =>
    obtain ⟨p, hreached, ht⟩ := ih
    obtain ⟨p', htakes, ht'⟩ := ht.of_pull hp
    exact ⟨p', .step hreached htakes, ht'⟩
  | needMore h hp ih =>
    obtain ⟨p, hreached, ht⟩ := ih
    exact ⟨p, hreached, ht.of_needMore hp⟩
  | finished h hp ih =>
    obtain ⟨p, hreached, ht⟩ := ih
    exact ⟨p, hreached, (ht.of_finished hp).1⟩

end StandsAt

end Tokenizer

end EntityDump
