import EntityDump.Proofs.Tokenizer.Resumption
/-!
# Positions in a text

A tokenizer that has the rest of its text at hand stands at a position: the bytes that are left, the open
containers and what may come next (`Holds`). What stands first among the bytes decides where the run goes on
and which event it gives on the way (`Gives`): blanks and separators give nothing, a token gives one event.

Each of these steps is there in both directions. A token of the grammar leads on to the bytes behind it
(`Holds.gives_scalar`, `Holds.gives_key`, `Holds.gives_open`, `Holds.gives_close`), and a run that comes
to its end (`Finishes`) has such a token before it (`Holds.value_cases`, `Holds.key_cases`,
`Holds.behind_cases`).
-/

namespace EntityDump

open Json (Event Scalar)
open Json.Grammar

namespace Tokenizer

/-- The tokenizer has exactly the given bytes of its text left, inside the given containers. -/
structure Holds (t : Tokenizer) (bytes : List UInt8) (stack : List Container) (expect : Expect) :
    Prop where
  buffer : t.buffer = bytes
  stack : t.stack = stack
  expect : t.expect = expect
  ended : t.ended = true

/-- A run gives events and goes on like that of another tokenizer. -/
def Gives (t : Tokenizer) (events : List Event) (t' : Tokenizer) : Prop :=
  t.outcome = prepend events t'.outcome

/-- A run comes to the end of its text. -/
def Finishes (t : Tokenizer) : Prop :=
  t.outcome.2 = .finished

/-! ### Runs from one position to another -/

section Gives

variable {t t' t'' : Tokenizer} {events events' : List Event}

lemma Gives.trans (h : t.Gives events t') (h' : t'.Gives events' t'') :
    t.Gives (events ++ events') t'' := by
  rw [Gives, h, h', prepend_prepend]

/-- Events do not change how a run ends. -/
lemma Gives.finishes_iff (h : t.Gives events t') : t.Finishes ↔ t'.Finishes := by
  rw [Finishes, Finishes, h]
  rfl

/-- A pull gives its event. -/
lemma gives_of_pull {e : Event} (h : t.pull = .ok (.event e, t')) : t.Gives [e] t' :=
  outcome_of_event h

/-- Tokenizers from which the same is pulled go on alike. -/
lemma gives_nil_of_pull_eq (h : t.pull = t'.pull) : t.Gives [] t' :=
  outcome_congr h

/-- A fault is not the end of a text. -/
lemma not_finishes_of_fail (fault : TokenFault) (h : t.pull = t.fail fault) : ¬ t.Finishes := by
  rw [Finishes, outcome_of_error h]
  rintro ⟨⟩

/-- A run that comes to its end is at its end or gives an event. -/
lemma Finishes.pull_cases (h : t.Finishes) :
    (∃ t', t.pull = .ok (.finished, t')) ∨ ∃ e t', t.pull = .ok (.event e, t') ∧ t'.Finishes := by
  rcases hp : t.pull with e | ⟨e | _ | _, t'⟩
  · rw [Finishes, outcome_of_error hp] at h
    cases h
  · exact .inr ⟨e, t', rfl, (gives_of_pull hp).finishes_iff.1 h⟩
  · rw [Finishes, outcome_of_needMore hp] at h
    cases h
  · exact .inl ⟨t', rfl⟩

end Gives

/-! ### Blanks and separators -/

section Separators

variable {t : Tokenizer} {bytes : List UInt8} {b : UInt8} {stack : List Container} {expect : Expect}

/-- The bytes that are skipped are the blanks of the grammar. -/
lemma isBlank_iff : Lexeme.isBlank b = true ↔ IsBlankByte b := by
  simp [Lexeme.isBlank, IsBlankByte, or_assoc]

/-- Skipping blanks twice from the beginning is skipping them once. -/
lemma skipBlanks_advance {blank : List UInt8} (hblank : IsBlank blank)
    (hb : t.buffer = blank ++ bytes) : (t.advance blank.length).skipBlanks = t.skipBlanks := by
  induction blank generalizing t with
  | nil => rfl
  | cons b blank ih =>
    obtain ⟨hfirst, hblank⟩ := List.forall_mem_cons.1 hblank
    rw [List.length_cons, Nat.add_comm, ← advance_advance, ih hblank (by simp [advance, hb]),
      ← skipBlanks_of_isBlank hb (isBlank_iff.2 hfirst)]

/-- Behind blanks the run goes on. -/
lemma Holds.gives_blank {blank : List UInt8} (h : t.Holds (blank ++ bytes) stack expect)
    (hblank : IsBlank blank) : ∃ t', t'.Holds bytes stack expect ∧ t.Gives [] t' := by
  refine ⟨t.advance blank.length, ⟨by simp [advance, h.buffer], h.stack, h.expect, h.ended⟩, ?_⟩
  apply gives_nil_of_pull_eq
  unfold pull skipSeparator
  rw [skipBlanks_advance hblank h.buffer]

/-- A run that comes to its end goes on behind the blanks that stand first. -/
lemma Holds.exists_blank (h : t.Holds bytes stack expect) (hfin : t.Finishes) :
    ∃ (blank bytes' : List UInt8) (t' : Tokenizer), bytes = blank ++ bytes' ∧ IsBlank blank ∧
      (∀ b ∈ bytes'.head?, Lexeme.isBlank b = false) ∧ t'.Holds bytes' stack expect ∧ t'.Finishes := by
  have hsplit := (List.takeWhile_append_dropWhile (p := Lexeme.isBlank) (l := bytes)).symm
  have hblank : IsBlank (bytes.takeWhile Lexeme.isBlank) := fun b hb =>
    isBlank_iff.1 (List.all_eq_true.1 (List.all_takeWhile (p := Lexeme.isBlank)) b hb)
  obtain ⟨t', ht', hgives⟩ := Holds.gives_blank (hsplit ▸ h) hblank
  refine ⟨_, _, t', hsplit, hblank, ?_, ht', hgives.finishes_iff.1 hfin⟩
  have hhead := List.head?_dropWhile_not Lexeme.isBlank bytes
  intro b hb
  rw [Option.mem_def.1 hb] at hhead
  exact hhead

/-- Behind a separator the run goes on. -/
lemma Holds.gives_separator {x : Expect} (h : t.Holds (b :: bytes) stack expect)
    (hblank : Lexeme.isBlank b = false) (hsep : t.separator? = some x) :
    ∃ t', t'.Holds bytes stack x ∧ t.Gives [] t' := by
  have hskip : t.skipBlanks = t := skipBlanks_eq_self (by simp [h.buffer, hblank])
  refine ⟨{ t.advance 1 with expect := x }, ⟨by simp [advance, h.buffer], h.stack, rfl, h.ended⟩, ?_⟩
  apply gives_nil_of_pull_eq
  have hbehind : ({ t.advance 1 with expect := x } : Tokenizer).skipBlanks.separator? = none :=
    separator?_of_separator? hsep rfl
  rw [pull, pull, skipSeparator_of_none hbehind, skipSeparator_of_some (hskip.symm ▸ hsep), hskip]

/-- A separator is a colon in front of a value, or a comma in front of what the innermost container holds. -/
lemma separator?_cases {x : Expect} (h : t.separator? = some x) :
    (∃ rest, t.buffer = 0x3a :: rest ∧ t.expect = .colon ∧ x = .value) ∨
      ∃ rest kind stack, t.buffer = 0x2c :: rest ∧ t.expect = .commaOrClose ∧ t.stack = kind :: stack ∧
        x = kind.expectNext := by
  unfold separator? at h
  split at h
  · next rest hb hexpect =>
    split at h
    · next hbyte => exact .inl ⟨rest, hbyte ▸ hb, hexpect, (Option.some.inj h).symm⟩
    · cases h
  · next rest stack hb hexpect hstack =>
    split at h
    · next hbyte => exact .inr ⟨rest, .object, stack, hbyte ▸ hb, hexpect, hstack, (Option.some.inj h).symm⟩
    · cases h
  · next rest stack hb hexpect hstack =>
    split at h
    · next hbyte => exact .inr ⟨rest, .array, stack, hbyte ▸ hb, hexpect, hstack, (Option.some.inj h).symm⟩
    · cases h
  · cases h

/-- Behind a colon stands a value. -/
lemma Holds.gives_colon (h : t.Holds (0x3a :: bytes) stack .colon) :
    ∃ t', t'.Holds bytes stack .value ∧ t.Gives [] t' :=
  h.gives_separator (by decide) (by simp [separator?, h.buffer, h.expect])

/-- Behind a comma stands what the container holds. -/
lemma Holds.gives_comma {kind : Container}
    (h : t.Holds (0x2c :: bytes) (kind :: stack) .commaOrClose) :
    ∃ t', t'.Holds bytes (kind :: stack) kind.expectNext ∧ t.Gives [] t' :=
  h.gives_separator (by decide) (by
    cases kind <;> simp [separator?, h.buffer, h.expect, h.stack, Container.expectNext])

/-- A byte that is neither a blank nor a separator is read. -/
lemma Holds.pull_eq (h : t.Holds (b :: bytes) stack expect) (hblank : Lexeme.isBlank b = false)
    (hsep : t.separator? = none) : t.pull = t.lexNext b := by
  have htoken : t.AtToken := ⟨by simp [h.buffer, hblank], hsep⟩
  rw [pull, htoken.skipSeparator, lex_of_cons h.buffer]

/-- Where neither a colon nor a comma may stand, there is no separator. -/
lemma separator?_of_expect (h : t.expect ≠ .colon) (h' : t.expect ≠ .commaOrClose) :
    t.separator? = none := by
  unfold separator?
  split
  all_goals simp_all

/-- A separator is skipped only where one is expected. -/
lemma Holds.separator?_eq_none (h : t.Holds bytes stack expect) (hcolon : expect ≠ .colon)
    (hcomma : expect ≠ .commaOrClose) : t.separator? = none :=
  separator?_of_expect (h.expect ▸ hcolon) (h.expect ▸ hcomma)

/-- Without bytes only a complete value is accepted. -/
lemma Holds.not_finishes_of_nil (h : t.Holds [] stack expect) (hexpect : expect ≠ .finished) :
    ¬ t.Finishes := by
  have htoken : t.AtToken := ⟨by simp [h.buffer], separator?_of_nil h.buffer⟩
  refine not_finishes_of_fail .endOfInput ?_
  rw [pull, htoken.skipSeparator, lex, h.buffer]
  simp [h.ended, h.expect, hexpect]

/-- The end of the text behind the value. -/
lemma Holds.outcome_of_finished (h : t.Holds [] stack .finished) : t.outcome = ([], .finished) := by
  have htoken : t.AtToken := ⟨by simp [h.buffer], separator?_of_nil h.buffer⟩
  have hpull : t.pull = .ok (.finished, t) := by
    rw [pull, htoken.skipSeparator, lex, h.buffer]
    simp [h.ended, h.expect]
  exact Tokenizer.outcome_of_finished hpull

/-- Behind the value stand blanks alone. -/
lemma Holds.eq_nil_of_finished (h : t.Holds bytes stack .finished)
    (hblank : ∀ b ∈ bytes.head?, Lexeme.isBlank b = false) (hfin : t.Finishes) : bytes = [] := by
  cases bytes with
  | nil => rfl
  | cons b bytes =>
    refine absurd hfin (not_finishes_of_fail (.unexpected b .nothing) ?_)
    rw [h.pull_eq (hblank b rfl) (h.separator?_eq_none nofun nofun)]
    simp [lexNext, h.expect]

end Separators

/-! ### Tokens -/

section Tokens

variable {t t' : Tokenizer} {bytes rest token : List UInt8} {b : UInt8} {stack : List Container}
  {expect : Expect}

/-- Where a scalar ends the run goes on. -/
lemma Holds.scalar (h : t.Holds bytes stack expect) (n : Nat) (value : Json) :
    (t.scalar n value).2.Holds (bytes.drop n) stack (expectAfter stack) :=
  ⟨by simp [Tokenizer.scalar, afterValue, advance, h.buffer], h.stack,
    by simp [Tokenizer.scalar, afterValue, advance, expectAfter, h.stack], h.ended⟩

/-- Where a key ends a colon follows. -/
lemma Holds.key (h : t.Holds bytes stack expect) (n : Nat) :
    { t.advance n with expect := .colon }.Holds (bytes.drop n) stack .colon :=
  ⟨by simp [advance, h.buffer], h.stack, rfl, h.ended⟩

/-- Where a container opens the run goes on. -/
lemma Holds.open (h : t.Holds (b :: bytes) stack expect) (kind : Container) :
    (t.openContainer kind).2.Holds bytes (kind :: stack) kind.expectFirst := by
  cases kind <;> exact ⟨by simp [openContainer, advance, h.buffer], by simp [openContainer, h.stack],
    rfl, h.ended⟩

/-- A string of the grammar is read. -/
lemma lexString_of_isStringOf {text : String} (hb : t.buffer = token ++ rest)
    (hs : IsStringOf token text) (next : String → Nat → TokenizerStep × Tokenizer) :
    t.lexString next = .ok (next text token.length) := by
  obtain ⟨hstring, hdecode⟩ := hs
  simp [lexString, hb, Lexeme.stringLength?_of_isString hstring, hdecode]

/-- A number of the grammar is read where no number byte stands behind it. -/
lemma lexNumber_of_isNumberOf {n : Json.Number} (hb : t.buffer = token ++ rest)
    (hended : t.ended = true) (hn : IsNumberOf token n)
    (hrest : ∀ b ∈ rest.head?, Lexeme.isNumberByte b = false) :
    t.lexNumber = .ok (t.scalar token.length (.number n)) := by
  obtain ⟨hnumber, hdecode⟩ := hn
  rw [lexNumber_of_closed (.inr hended), hb, Lexeme.takeWhile_of_isNumber hnumber hrest,
    Lexeme.asciiText, hdecode]

/-- A scalar of the grammar is read where no number byte stands behind it. -/
lemma lexValue_of_isScalar {s : Scalar} (hb : t.buffer = token ++ rest) (hended : t.ended = true)
    (hs : IsScalar token s) (hrest : ∀ b ∈ rest.head?, Lexeme.isNumberByte b = false) :
    ∃ b tail, token = b :: tail ∧ Lexeme.isBlank b = false ∧
      t.lexValue b = .ok (t.scalar token.length s.toJson) := by
  have hword : ∀ word : LiteralWord, token = word.bytes → word.bytes <+: t.buffer := by
    rintro word rfl
    exact hb ▸ List.prefix_append _ _
  cases hs with
  | null =>
    refine ⟨0x6e, _, rfl, by decide, ?_⟩
    exact lexLiteral_of_begins (hword .nullWord rfl) _
  | true =>
    refine ⟨0x74, _, rfl, by decide, ?_⟩
    exact lexLiteral_of_begins (hword .trueWord rfl) _
  | false =>
    refine ⟨0x66, _, rfl, by decide, ?_⟩
    exact lexLiteral_of_begins (hword .falseWord rfl) _
  | number hn =>
    obtain ⟨b, tail, rfl, hbegins⟩ := Lexeme.exists_beginsNumber hn.1
    have hne := fun x hx => Lexeme.ne_of_beginsNumber (x := x) hbegins hx
    refine ⟨b, tail, rfl, Lexeme.isBlank_of_beginsNumber hbegins, ?_⟩
    rw [lexValue, if_neg (hne _ rfl), if_neg (hne _ rfl), if_neg (hne _ rfl), if_pos hbegins]
    exact lexNumber_of_isNumberOf hb hended hn hrest
  | string hstring =>
    obtain ⟨⟨_⟩, -⟩ := id hstring
    exact ⟨0x22, _, rfl, by decide, lexString_of_isStringOf hb hstring _⟩

/-- Behind a scalar of the grammar the run goes on. -/
lemma Holds.gives_scalar {s : Scalar} (h : t.Holds (token ++ rest) stack .value)
    (hs : IsScalar token s) (hrest : ∀ b ∈ rest.head?, Lexeme.isNumberByte b = false) :
    ∃ t', t'.Holds rest stack (expectAfter stack) ∧ t.Gives [.scalar s.toJson] t' := by
  obtain ⟨b, tail, htoken, hblank, hlex⟩ := lexValue_of_isScalar h.buffer h.ended hs hrest
  have hafter := h.scalar token.length s.toJson
  rw [List.drop_left] at hafter
  refine ⟨_, hafter, gives_of_pull ?_⟩
  rw [htoken] at h
  rw [h.pull_eq hblank (h.separator?_eq_none nofun nofun)]
  simp only [lexNext, h.expect, hlex]
  rfl

/-- Behind a key of the grammar stands a colon. -/
lemma Holds.gives_key {key : String} (h : t.Holds (token ++ rest) stack .key)
    (hkey : IsStringOf token key) : ∃ t', t'.Holds rest stack .colon ∧ t.Gives [.key key] t' := by
  have hafter := h.key token.length
  rw [List.drop_left] at hafter
  refine ⟨_, hafter, gives_of_pull ?_⟩
  have hlex := lexString_of_isStringOf h.buffer hkey
    fun text n => (.event (.key text), { t.advance n with expect := .colon })
  obtain ⟨⟨_⟩, -⟩ := id hkey
  rw [h.pull_eq (b := 0x22) (by decide)
    (h.separator?_eq_none nofun nofun)]
  simp only [lexNext, h.expect, if_pos]
  exact hlex

/-- Inside an opened container the run goes on. -/
lemma Holds.gives_open {kind : Container} (h : t.Holds (kind.opening :: bytes) stack .value) :
    ∃ t', t'.Holds bytes (kind :: stack) kind.expectFirst ∧ t.Gives [kind.startEvent] t' := by
  refine ⟨(t.openContainer kind).2, h.open kind, gives_of_pull ?_⟩
  rw [h.pull_eq (by cases kind <;> decide)
    (h.separator?_eq_none nofun nofun)]
  simp only [lexNext, h.expect]
  cases kind <;> rfl

/-- Behind a closed container the run goes on. -/
lemma Holds.gives_close (kind : Container)
    (h : t.Holds (kind.closing :: bytes) (kind :: stack) expect)
    (hexpect : expect = kind.expectFirst ∨ expect = .commaOrClose) :
    ∃ t', t'.Holds bytes stack (expectAfter stack) ∧ t.Gives [kind.endEvent] t' := by
  refine ⟨(t.closeContainer kind.endEvent).2, ⟨by simp [closeContainer, afterValue, advance, h.buffer],
    by simp [closeContainer, afterValue, h.stack],
    by simp [closeContainer, afterValue, expectAfter, h.stack], h.ended⟩, gives_of_pull ?_⟩
  have hsep : t.separator? = none := by
    cases kind <;> rcases hexpect with rfl | rfl <;>
      simp [separator?, h.buffer, h.expect, h.stack, Container.expectFirst, Container.closing]
  rw [h.pull_eq (by cases kind <;> decide) hsep]
  cases kind <;> rcases hexpect with rfl | rfl <;>
    simp [lexNext, h.expect, h.stack, Container.expectFirst, Container.closing, Container.endEvent,
      closeContainer]

/-- Right after a container was opened, what comes is read as anywhere in the container, unless the
container closes. -/
lemma lexNext_of_expectFirst {kind : Container} (hexpect : t.expect = kind.expectFirst)
    (hended : t.ended = true) (hb : b ≠ kind.closing) :
    t.lexNext b = { t with expect := kind.expectNext }.lexNext b := by
  cases kind with
  | object =>
    simp only [lexNext, hexpect, Container.expectFirst, Container.expectNext]
    rw [if_neg (show b ≠ 0x7d from hb)]
    simp [lexKey, lexString, incomplete, fail, advance, hended]
  | array =>
    simp only [lexNext, hexpect, Container.expectFirst, Container.expectNext]
    rw [if_neg (show b ≠ 0x5d from hb)]
    simp [lexValue, lexString, lexNumber, lexLiteral, incomplete, fail, scalar, afterValue,
      openContainer, advance, hended]

/-- What a container that was opened holds is read as anywhere in the container. -/
lemma Holds.gives_first {kind : Container} {blank : List UInt8}
    (h : t.Holds (blank ++ b :: bytes) (kind :: stack) kind.expectFirst) (hblank : IsBlank blank)
    (hb : Lexeme.isBlank b = false) (hclosing : b ≠ kind.closing) :
    ∃ t', t'.Holds (blank ++ b :: bytes) (kind :: stack) kind.expectNext ∧ t.Gives [] t' := by
  refine ⟨{ t with expect := kind.expectNext }, ⟨h.buffer, h.stack, rfl, h.ended⟩, ?_⟩
  apply gives_nil_of_pull_eq
  have hskip : ∀ u : Tokenizer, u.buffer = blank ++ b :: bytes →
      u.skipBlanks = u.advance blank.length := by
    intro u hu
    rw [← skipBlanks_advance hblank hu]
    exact skipBlanks_eq_self (by simp [advance, hu, hb])
  have hpull : ∀ u : Tokenizer, u.buffer = blank ++ b :: bytes → u.expect ≠ .colon →
      u.expect ≠ .commaOrClose → u.pull = (u.advance blank.length).lexNext b := by
    intro u hu hcolon hcomma
    rw [pull, skipSeparator_of_none, hskip u hu]
    · exact lex_of_cons (show (u.advance blank.length).buffer = b :: bytes by simp [advance, hu])
    · rw [hskip u hu]
      exact separator?_of_expect hcolon hcomma
  rw [hpull t h.buffer, hpull { t with expect := kind.expectNext } h.buffer]
  · exact lexNext_of_expectFirst (t := t.advance blank.length) h.expect h.ended hclosing
  · cases kind <;> simp [Container.expectNext]
  · cases kind <;> simp [Container.expectNext]
  · rw [h.expect]; cases kind <;> simp [Container.expectFirst]
  · rw [h.expect]; cases kind <;> simp [Container.expectFirst]

/-! ### Tokens before the end of a text -/

/-- A run that comes to its end has a token of the grammar before it that may stand there. -/
lemma Holds.token_of_finishes (h : t.Holds (b :: bytes) stack expect) (hblank : Lexeme.isBlank b = false)
    (hsep : t.separator? = none) (hfin : t.Finishes) :
    ∃ (token rest : List UInt8) (e : Event) (stack' : List Container) (expect' : Expect) (t' : Tokenizer),
      b :: bytes = token ++ rest ∧ Takes stack expect token e stack' expect' ∧ t'.Holds rest stack' expect' ∧
        t'.Finishes := by
  have htoken : t.AtToken := ⟨by simp [h.buffer, hblank], hsep⟩
  rcases hfin.pull_cases with ⟨t', hp⟩ | ⟨e, t', hp, hfin'⟩
  · obtain ⟨rfl, -, hnil, -⟩ := ends_of_finished hp
    rw [htoken.skipSeparator, h.buffer] at hnil
    cases hnil
  · obtain ⟨token, hsplit, -, htakes, -⟩ := token_of_event hp
    rw [htoken.skipSeparator, h.buffer] at hsplit
    rw [htoken.skipSeparator, h.stack, h.expect] at htakes
    have hended : t'.ended = true := (advances_of_pull hp).ended.trans h.ended
    exact ⟨token, t'.buffer, e, t'.stack, t'.expect, t', hsplit, htakes, ⟨rfl, rfl, rfl, hended⟩, hfin'⟩

/-- Where a value may stand, a run that comes to its end has an opening bracket or a scalar before it. -/
lemma Holds.value_cases (h : t.Holds (b :: bytes) stack .value)
    (hblank : Lexeme.isBlank b = false) (hfin : t.Finishes) :
    (∃ (kind : Container) (t' : Tokenizer), b = kind.opening ∧
        t'.Holds bytes (kind :: stack) kind.expectFirst ∧ t'.Finishes) ∨
      ∃ (token rest : List UInt8) (s : Scalar) (t' : Tokenizer), b :: bytes = token ++ rest ∧ IsScalar token s ∧
        t'.Holds rest stack (expectAfter stack) ∧ t'.Finishes := by
  obtain ⟨token, rest, e, stack', expect', t', hsplit, htakes, h', hfin'⟩ :=
    h.token_of_finishes hblank (h.separator?_eq_none nofun nofun) hfin
  rcases htakes with ⟨kind, -⟩ | ⟨-, hs⟩ | ⟨hexpect, -⟩ | ⟨kind, hexpect⟩
  · obtain ⟨rfl, rfl⟩ := List.cons.inj hsplit
    exact .inl ⟨kind, t', rfl, h', hfin'⟩
  · exact .inr ⟨token, rest, _, t', hsplit, hs, h', hfin'⟩
  · simp at hexpect
  · cases kind <;> simp at hexpect

/-- Where a key may stand, a run that comes to its end has one before it. -/
lemma Holds.key_cases (h : t.Holds (b :: bytes) stack .key) (hblank : Lexeme.isBlank b = false)
    (hfin : t.Finishes) :
    ∃ (token rest : List UInt8) (key : String) (t' : Tokenizer), b :: bytes = token ++ rest ∧
      IsStringOf token key ∧ t'.Holds rest stack .colon ∧ t'.Finishes := by
  obtain ⟨token, rest, e, stack', expect', t', hsplit, htakes, h', hfin'⟩ :=
    h.token_of_finishes hblank (h.separator?_eq_none nofun nofun) hfin
  rcases htakes with ⟨-, hexpect⟩ | ⟨hexpect, -⟩ | ⟨-, hkey⟩ | ⟨kind, hexpect⟩
  · simp at hexpect
  · simp at hexpect
  · exact ⟨token, rest, _, t', hsplit, hkey, h', hfin'⟩
  · cases kind <;> simp at hexpect

/-- Behind a key, a run that comes to its end has a colon before it. -/
lemma Holds.colon_cases (h : t.Holds (b :: bytes) stack .colon) (hblank : Lexeme.isBlank b = false)
    (hfin : t.Finishes) : b = 0x3a ∧ ∃ t' : Tokenizer, t'.Holds bytes stack .value ∧ t'.Finishes := by
  by_cases hb : b = 0x3a
  · subst hb
    obtain ⟨t', ht', hgives⟩ := h.gives_colon
    exact ⟨rfl, t', ht', hgives.finishes_iff.1 hfin⟩
  · have hsep : t.separator? = none := by simp [separator?, h.buffer, h.expect, hb]
    obtain ⟨token, rest, e, stack', expect', t', -, htakes, -⟩ := h.token_of_finishes hblank hsep hfin
    rcases htakes with ⟨-, hexpect⟩ | ⟨hexpect, -⟩ | ⟨hexpect, -⟩ | ⟨kind, hexpect⟩
    · simp at hexpect
    · simp at hexpect
    · simp at hexpect
    · cases kind <;> simp at hexpect

/-- Behind a value in a container, a run that comes to its end has a comma or the closing bracket before
it. -/
lemma Holds.behind_cases {kind : Container} (h : t.Holds (b :: bytes) (kind :: stack) .commaOrClose)
    (hblank : Lexeme.isBlank b = false) (hfin : t.Finishes) :
    (b = 0x2c ∧ ∃ t' : Tokenizer, t'.Holds bytes (kind :: stack) kind.expectNext ∧ t'.Finishes) ∨
      (b = kind.closing ∧ ∃ t' : Tokenizer, t'.Holds bytes stack (expectAfter stack) ∧ t'.Finishes) := by
  by_cases hcomma : b = 0x2c
  · subst hcomma
    obtain ⟨t', ht', hgives⟩ := h.gives_comma
    exact .inl ⟨rfl, t', ht', hgives.finishes_iff.1 hfin⟩
  · right
    have hsep : t.separator? = none := by
      cases kind <;> simp [separator?, h.buffer, h.expect, h.stack, hcomma]
    obtain ⟨token, rest, e, stack', expect', t', hsplit, htakes, h', hfin'⟩ :=
      h.token_of_finishes hblank hsep hfin
    rcases htakes with ⟨-, hexpect⟩ | ⟨hexpect, -⟩ | ⟨hexpect, -⟩ | ⟨kind', hexpect | ⟨-, hhead⟩⟩
    · simp at hexpect
    · simp at hexpect
    · simp at hexpect
    · cases kind' <;> simp at hexpect
    · obtain rfl := Option.some.inj hhead
      obtain ⟨rfl, rfl⟩ := List.cons.inj hsplit
      exact ⟨rfl, t', h', hfin'⟩

end Tokens

end Tokenizer

end EntityDump
