import EntityDump.Proofs.Tokenizer.Recognition
/-!
# Beginnings of texts

Blanks, separators and tokens that follow one another as a tokenizer expects them lead to a position inside a text
(`Begins`). There what is expected fits the innermost open container (`Begins.fits`), so something can be put
behind that completes the text: a value where one is expected, and the closing brackets (`Fits.exists_ending`).
A tokenizer is led to the same position whatever comes behind (`Begins.leads`), and thus to the end of the completed
text: every beginning extends to a text of the grammar (`Begins.exists_isText`).
-/

namespace EntityDump

open Json (Event Scalar)
open Json.Grammar

namespace Tokenizer

/-- Bytes that lead to a position inside a text: the containers that are open there, and what is expected. -/
inductive Begins : List UInt8 → List Container → Expect → Prop
  | start : Begins [] [] .value
  | blank {s : List UInt8} {stack : List Container} {expect : Expect} {b : UInt8} :
      Begins s stack expect → Lexeme.isBlank b = true → Begins (s ++ [b]) stack expect
  | colon {s : List UInt8} {stack : List Container} : Begins s stack .colon →
      Begins (s ++ [0x3a]) stack .value
  | comma {s : List UInt8} {stack : List Container} {kind : Container} :
      Begins s (kind :: stack) .commaOrClose → Begins (s ++ [0x2c]) (kind :: stack) kind.expectNext
  | token {s token : List UInt8} {e : Event} {stack stack' : List Container} {expect expect' : Expect} :
      Begins s stack expect → Takes stack expect token e stack' expect' →
      Begins (s ++ token) stack' expect'

/-- What is expected fits the innermost of the open containers. -/
def Fits (stack : List Container) : Expect → Prop
  | .value => True
  | .firstValue => stack.head? = some .array
  | .firstKey | .key | .colon => stack.head? = some .object
  | .commaOrClose => stack ≠ []
  | .finished => stack = []

/-- A value has just ended, so that what comes next may not continue a number. -/
def Expect.AfterValue (expect : Expect) : Prop :=
  expect = .commaOrClose ∨ expect = .finished

variable {t t' : Tokenizer} {s token rest bytes : List UInt8} {b : UInt8} {e : Event} {kind : Container}
  {stack stack' : List Container} {expect expect' : Expect}

/-! ### What is expected -/

/-- What is expected behind a value fits the open containers. -/
lemma fits_expectAfter (stack : List Container) : Fits stack (expectAfter stack) := by
  cases stack with
  | nil => exact rfl
  | cons kind stack => exact List.cons_ne_nil kind stack

/-- What is expected behind a value comes behind one. -/
lemma afterValue_expectAfter (stack : List Container) : Expect.AfterValue (expectAfter stack) := by
  cases stack with
  | nil => exact .inr rfl
  | cons kind stack => exact .inl rfl

/-- The open containers determine what is expected behind a value. -/
lemma Fits.expectAfter_eq (h : Fits stack expect) (hafter : Expect.AfterValue expect) :
    expectAfter stack = expect := by
  rcases hafter with rfl | rfl
  · obtain ⟨kind, stack, rfl⟩ := List.exists_cons_of_ne_nil h
    rfl
  · obtain rfl : stack = [] := h
    rfl

/-- Right behind the bracket of a container, the container is the innermost one. -/
lemma Fits.head?_eq (h : Fits stack expect) (hexpect : expect = kind.expectFirst) : stack.head? = some kind := by
  subst hexpect
  cases kind <;> exact h

/-- A token keeps what is expected fitting the open containers. -/
lemma Takes.fits (h : Takes stack expect token e stack' expect') (hfits : Fits stack expect) :
    Fits stack' expect' := by
  rcases h with kind | - | ⟨hexpect | hexpect, -⟩ | -
  · cases kind <;> exact rfl
  · exact fits_expectAfter _
  · exact hfits.head?_eq hexpect
  · subst hexpect
    exact hfits
  · exact fits_expectAfter _

/-- What is expected at a position fits the containers that are open there. -/
lemma Begins.fits (h : Begins s stack expect) : Fits stack expect := by
  induction h with
  | start | colon => trivial
  | blank _ _ ih => exact ih
  | @comma _ _ kind =>
    cases kind with
    | object => exact rfl
    | array => trivial
  | token _ htakes ih => exact htakes.fits ih

/-- Behind a value comes a closing bracket before any other token. -/
lemma Takes.endsNumber (h : Takes stack expect token e stack' expect') (hafter : Expect.AfterValue expect)
    (rest : List UInt8) : EndsNumber (token ++ rest) := by
  have hnot : ∀ kind : Container, ¬ kind.MayHold expect := by
    intro kind
    rcases hafter with rfl | rfl <;> cases kind <;> simp
  rcases h with ⟨-, hexpect⟩ | ⟨hexpect, -⟩ | ⟨hexpect, -⟩ | kind
  · exact absurd hexpect (hnot .array)
  · exact absurd hexpect (hnot .array)
  · exact absurd hexpect (hnot .object)
  · exact endsNumber_cons (by cases kind <;> decide) rest

/-! ### From the beginning to a position -/

/-- No number goes on in a blank. -/
lemma isNumberByte_of_isBlank (h : Lexeme.isBlank b = true) : Lexeme.isNumberByte b = false := by
  rcases isBlank_iff.1 h with rfl | rfl | rfl | rfl <;> decide

/-- Where a container may hold something, a run goes on as behind a comma, unless the container closes. -/
lemma Holds.gives_mayHold (h : t.Holds (b :: bytes) stack expect) (hfits : Fits stack expect)
    (hexpect : kind.MayHold expect) (hblank : Lexeme.isBlank b = false) (hb : b ≠ kind.closing) :
    ∃ t', t'.Holds (b :: bytes) stack kind.expectNext ∧ t.Gives [] t' := by
  rcases hexpect with hexpect | rfl
  · obtain ⟨stack, rfl⟩ := List.head?_eq_some_iff.1 (hfits.head?_eq hexpect)
    subst hexpect
    exact @Holds.gives_first t bytes b stack kind [] h (List.forall_mem_nil _) hblank hb
  · exact ⟨t, h, rfl⟩

/-- A token that may stand first gives its event, and the run goes on behind it. -/
lemma Holds.gives_takes (h : t.Holds (token ++ rest) stack expect) (hfits : Fits stack expect)
    (htakes : Takes stack expect token e stack' expect')
    (hrest : Expect.AfterValue expect' → EndsNumber rest) :
    ∃ t', t'.Holds rest stack' expect' ∧ t.Gives [e] t' := by
  rcases htakes with ⟨kind, hexpect⟩ | ⟨hexpect, hs⟩ | ⟨hexpect, hkey⟩ | ⟨kind, hexpect⟩
  · obtain ⟨u, hu, hfirst⟩ := Holds.gives_mayHold h hfits hexpect (by cases kind <;> decide)
      (by cases kind <;> decide)
    obtain ⟨t', ht', hopen⟩ := Holds.gives_open hu
    exact ⟨t', ht', hfirst.trans hopen⟩
  · obtain ⟨b, tail, rfl, hblank, hclosing, -⟩ := exists_first_of_isScalar hs
    obtain ⟨u, hu, hfirst⟩ := Holds.gives_mayHold h hfits hexpect hblank hclosing
    obtain ⟨t', ht', hscalar⟩ := Holds.gives_scalar hu hs (hrest (afterValue_expectAfter stack))
    exact ⟨t', ht', hfirst.trans hscalar⟩
  · obtain ⟨⟨_⟩, -⟩ := id hkey
    obtain ⟨u, hu, hfirst⟩ := Holds.gives_mayHold h hfits hexpect (by decide) (by decide)
    obtain ⟨t', ht', hgives⟩ := Holds.gives_key hu hkey
    exact ⟨t', ht', hfirst.trans hgives⟩
  · have hhead : stack.head? = some kind := by
      rcases hexpect with hexpect | ⟨-, hhead⟩
      · exact hfits.head?_eq hexpect
      · exact hhead
    obtain ⟨stack, rfl⟩ := List.head?_eq_some_iff.1 hhead
    exact Holds.gives_close kind h (hexpect.imp_right And.left)

/-- A tokenizer before a text is led to the position, whatever the text is from there on. -/
theorem Begins.leads (h : Begins s stack expect) (ht : t.Holds (s ++ rest) [] .value)
    (hrest : Expect.AfterValue expect → EndsNumber rest) :
    ∃ t' events, t'.Holds rest stack expect ∧ t.Gives events t' := by
  -- Each further part begins with a byte that ends a number, so that `hrest` is left for the last part alone.
  induction h generalizing rest with
  | start => exact ⟨t, [], ht, rfl⟩
  | @blank s stack expect b _ hb ih =>
    rw [List.append_assoc, List.singleton_append] at ht
    obtain ⟨u, events, hu, hgives⟩ := ih ht fun _ => endsNumber_cons (isNumberByte_of_isBlank hb) rest
    obtain ⟨t', ht', hskip⟩ := @Holds.gives_blank u rest stack expect [b] hu
      (List.forall_mem_singleton.2 (isBlank_iff.1 hb))
    exact ⟨t', _, ht', hgives.trans hskip⟩
  | colon _ ih =>
    rw [List.append_assoc, List.singleton_append] at ht
    obtain ⟨u, events, hu, hgives⟩ := ih ht fun _ => endsNumber_cons (by decide) rest
    obtain ⟨t', ht', hskip⟩ := hu.gives_colon
    exact ⟨t', _, ht', hgives.trans hskip⟩
  | comma _ ih =>
    rw [List.append_assoc, List.singleton_append] at ht
    obtain ⟨u, events, hu, hgives⟩ := ih ht fun _ => endsNumber_cons (by decide) rest
    obtain ⟨t', ht', hskip⟩ := Holds.gives_comma hu
    exact ⟨t', _, ht', hgives.trans hskip⟩
  | token hbegins htakes ih =>
    rw [List.append_assoc] at ht
    obtain ⟨u, events, hu, hgives⟩ := ih ht fun hafter => htakes.endsNumber hafter rest
    obtain ⟨t', ht', htoken⟩ := hu.gives_takes hbegins.fits htakes hrest
    exact ⟨t', _, ht', hgives.trans htoken⟩

/-! ### From a position to the end -/

/-- No number goes on in closing brackets. -/
lemma endsNumber_closing (stack : List Container) : EndsNumber (stack.map Container.closing) := by
  cases stack with
  | nil => simp [EndsNumber]
  | cons kind stack => exact endsNumber_cons (by cases kind <;> decide) _

/-- Behind a value the closing brackets complete the text. -/
lemma finishes_closing (h : t.Holds (stack.map Container.closing) stack (expectAfter stack)) :
    t.Finishes := by
  induction stack generalizing t with
  | nil => rw [Finishes, Holds.outcome_of_finished h]
  | cons kind stack ih =>
    obtain ⟨t', ht', hclose⟩ := Holds.gives_close kind h (.inr rfl)
    exact hclose.finishes_iff.2 (ih ht')

/-- A value and the closing brackets complete the text where a value is expected. -/
lemma finishes_null (h : t.Holds ([0x6e, 0x75, 0x6c, 0x6c] ++ stack.map Container.closing) stack .value) :
    t.Finishes := by
  obtain ⟨t', ht', hscalar⟩ := h.gives_scalar .null (endsNumber_closing stack)
  exact hscalar.finishes_iff.2 (finishes_closing ht')

/-- A colon before them completes the text behind a key. -/
lemma finishes_colon
    (h : t.Holds (0x3a :: ([0x6e, 0x75, 0x6c, 0x6c] ++ stack.map Container.closing)) stack .colon) :
    t.Finishes := by
  obtain ⟨t', ht', hcolon⟩ := h.gives_colon
  exact hcolon.finishes_iff.2 (finishes_null ht')

/-- Two quotes are the empty string. -/
lemma isStringOf_empty : IsStringOf [0x22, 0x22] "" :=
  ⟨.mk .nil, rfl⟩

/-- At each position something completes the text. -/
lemma Fits.exists_ending (h : Fits stack expect) :
    ∃ rest, (Expect.AfterValue expect → EndsNumber rest) ∧
      ∀ t : Tokenizer, t.Holds rest stack expect → t.Finishes := by
  have hvalue : ∀ {rest : List UInt8}, expect = .value ∨ expect = .key ∨ expect = .colon →
      Expect.AfterValue expect → EndsNumber rest := by
    rintro _ (rfl | rfl | rfl) (hafter | hafter) <;> cases hafter
  by_cases hafter : Expect.AfterValue expect
  · rw [← h.expectAfter_eq hafter]
    exact ⟨_, fun _ => endsNumber_closing stack, fun t ht => finishes_closing ht⟩
  by_cases hfirst : ∃ kind : Container, expect = kind.expectFirst
  · obtain ⟨kind, rfl⟩ := hfirst
    obtain ⟨stack, rfl⟩ := List.head?_eq_some_iff.1 (h.head?_eq rfl)
    refine ⟨(kind :: stack).map Container.closing, fun _ => endsNumber_closing _, fun t ht => ?_⟩
    obtain ⟨t', ht', hclose⟩ := Holds.gives_close kind ht (.inl rfl)
    exact hclose.finishes_iff.2 (finishes_closing ht')
  cases expect with
  | value => exact ⟨_, hvalue (.inl rfl), fun t ht => finishes_null ht⟩
  | colon => exact ⟨_, hvalue (.inr (.inr rfl)), fun t ht => finishes_colon ht⟩
  | key =>
    refine ⟨[0x22, 0x22] ++ (0x3a :: ([0x6e, 0x75, 0x6c, 0x6c] ++ stack.map Container.closing)),
      hvalue (.inr (.inl rfl)), fun t ht => ?_⟩
    obtain ⟨t', ht', hkey⟩ := Holds.gives_key ht isStringOf_empty
    exact hkey.finishes_iff.2 (finishes_colon ht')
  | firstValue => exact absurd ⟨.array, rfl⟩ hfirst
  | firstKey => exact absurd ⟨.object, rfl⟩ hfirst
  | commaOrClose => exact absurd (.inl rfl) hafter
  | finished => exact absurd (.inr rfl) hafter

/-- A beginning extends to a text. -/
theorem Begins.exists_isText (h : Begins s stack expect) : ∃ rest d, IsText (s ++ rest) d := by
  obtain ⟨rest, hrest, hfinishes⟩ := h.fits.exists_ending
  obtain ⟨t', events, ht', hgives⟩ := h.leads (holds_limited 0 (s ++ rest)) hrest
  exact ⟨rest, isText_of_finishes (hgives.finishes_iff.2 (hfinishes t' ht'))⟩

/-! ### From a position to the next -/

/-- Blanks lead to the same position. -/
lemma Begins.append_blank (h : Begins s stack expect) {blank : List UInt8}
    (hblank : ∀ b ∈ blank, Lexeme.isBlank b = true) : Begins (s ++ blank) stack expect := by
  induction blank generalizing s with
  | nil => rwa [List.append_nil]
  | cons b blank ih =>
    obtain ⟨hb, hblank⟩ := List.forall_mem_cons.1 hblank
    have hrest := ih (h.blank hb) hblank
    rwa [List.append_assoc, List.singleton_append] at hrest

/-- The tokenizer has used the first of the bytes that it was fed, and has the others at hand. -/
structure HasUsed (t : Tokenizer) (used bytes : List UInt8) : Prop where
  split : used ++ t.buffer = bytes
  offset : t.offset = used.length
  begins : Begins used t.stack t.expect

/-- Using what leads to another position. -/
lemma HasUsed.advance (h : t.HasUsed s bytes) (hb : t.buffer = token ++ rest)
    (hbegins : Begins (s ++ token) stack expect) :
    { t.advance token.length with stack := stack, expect := expect }.HasUsed (s ++ token) bytes := by
  refine ⟨?_, ?_, hbegins⟩
  · have hdrop : (t.advance token.length).buffer = rest := by simp [Tokenizer.advance, hb]
    rw [← h.split, hb, ← List.append_assoc]
    exact congrArg (s ++ token ++ ·) hdrop
  · rw [List.length_append, ← h.offset]
    rfl

/-- Blanks that are skipped are used. -/
lemma HasUsed.skipBlanks (h : t.HasUsed s bytes) : ∃ used, t.skipBlanks.HasUsed used bytes := by
  have hbegins : Begins (s ++ t.buffer.takeWhile Lexeme.isBlank) t.stack t.expect :=
    h.begins.append_blank (List.all_eq_true.1 List.all_takeWhile)
  exact ⟨_, h.advance t.takeWhile_append_skipBlanks.symm hbegins⟩

/-- Skipping to the next token leads on, whatever the token is. -/
lemma HasUsed.skipSeparator (h : t.HasUsed s bytes) : ∃ used, t.skipSeparator.HasUsed used bytes := by
  obtain ⟨used, h⟩ := h.skipBlanks
  cases hsep : t.skipBlanks.separator? with
  | none =>
    rw [skipSeparator_of_none hsep]
    exact ⟨used, h⟩
  | some x =>
    rw [skipSeparator_of_some hsep]
    rcases separator?_cases hsep with ⟨rest, hb, hexpect, rfl⟩ | ⟨rest, kind, stack, hb, hexpect, hstack, rfl⟩
    · exact (h.advance  hb (.colon (hexpect ▸ h.begins))).skipBlanks
    · have hbegins : Begins (used ++ [0x2c]) t.skipBlanks.stack kind.expectNext := by
        rw [hstack]
        exact .comma (hstack ▸ hexpect ▸ h.begins)
      exact (h.advance  hb hbegins).skipBlanks

/-- A pull leads on. -/
lemma HasUsed.of_pull {step : TokenizerStep} (h : t.HasUsed s bytes) (hp : t.pull = .ok (step, t')) :
    ∃ used, t'.HasUsed used bytes := by
  obtain ⟨used, h⟩ := h.skipSeparator
  have hlexes := lexes_pull t
  generalize t.pull = r at hp hlexes
  cases hlexes with
  | token hb htakes =>
    obtain ⟨-, rfl⟩ := Prod.mk.inj (Except.ok.inj hp)
    exact ⟨_, h.advance hb (h.begins.token htakes)⟩
  | waits | finished =>
    obtain ⟨-, rfl⟩ := Prod.mk.inj (Except.ok.inj hp)
    exact ⟨used, h⟩
  | tooLong | refused => exact absurd hp fail_ne_ok

end Tokenizer

end EntityDump
