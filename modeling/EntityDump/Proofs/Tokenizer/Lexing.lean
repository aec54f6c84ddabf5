import EntityDump.Proofs.Tokenizer.Extent
import EntityDump.Tokenizer.Run
import Mathlib.Data.List.TakeWhile
import Mathlib.Tactic.Common
/-!
# What a pull comes to

A pull skips to the next token, and what it gives there is one of five things (`Lexes`): the event of a token of
the grammar that may stand there (`Takes`), a request for more bytes, a fault of a token beyond the limit, another
fault, or the end of the text (`lexes_pull`). What a pull changes follows from this: it uses some of the bytes at
hand, and besides changes only what is open and what may come next (`advances_of_pull`).
-/

namespace EntityDump

open Json (Event Scalar)
open Json.Grammar

/-! ### The bytes around containers -/

namespace Container

/-- The bracket that opens a container. -/
def opening : Container → UInt8
  | object => 0x7b
  | array => 0x5b

/-- The bracket that closes a container. -/
def closing : Container → UInt8
  | object => 0x7d
  | array => 0x5d

/-- The event at the beginning of a container. -/
def startEvent : Container → Event
  | object => .objectStart
  | array => .arrayStart

/-- The event at the end of a container. -/
def endEvent : Container → Event
  | object => .objectEnd
  | array => .arrayEnd

/-- What may come right after a container was opened. -/
def expectFirst : Container → Expect
  | object => .firstKey
  | array => .firstValue

/-- What comes after a comma in a container. -/
def expectNext : Container → Expect
  | object => .key
  | array => .value

@[simp] lemma expectFirst_object : object.expectFirst = .firstKey := rfl

@[simp] lemma expectFirst_array : array.expectFirst = .firstValue := rfl

/-- What a container of the kind holds may come next: right behind its bracket, or behind a comma. -/
def MayHold (kind : Container) (expect : Expect) : Prop :=
  expect = kind.expectFirst ∨ expect = kind.expectNext

/-- An object may hold a field where a key is expected. -/
@[simp] lemma mayHold_object {expect : Expect} : object.MayHold expect ↔ expect = .firstKey ∨ expect = .key :=
  Iff.rfl

/-- An array may hold an item where a value is expected. -/
@[simp] lemma mayHold_array {expect : Expect} : array.MayHold expect ↔ expect = .firstValue ∨ expect = .value :=
  Iff.rfl

end Container

/-- The bytes begin with a token that does not end in them: a string without its closing quote, or bytes of a
number up to the last one. -/
inductive Lexeme.Unfinished (bytes : List UInt8) : TokenKind → Prop
  | string : bytes.head? = some Json.StringToken.quote → stringLength? bytes = none → Unfinished bytes .string
  | number : (∃ b rest, bytes = b :: rest ∧ beginsNumber b = true) → (∀ b ∈ bytes, isNumberByte b = true) →
      Unfinished bytes .number

namespace Tokenizer

/-- What may come after a value inside the given containers. -/
def expectAfter (stack : List Container) : Expect :=
  if stack.isEmpty then .finished else .commaOrClose

/-- A token of the grammar that may stand where something is expected inside some containers, the event that it
gives, and the containers that are open and what is expected behind it. -/
inductive Takes (stack : List Container) (expect : Expect) :
    List UInt8 → Event → List Container → Expect → Prop
  | opening (kind : Container) : Container.array.MayHold expect →
      Takes stack expect [kind.opening] kind.startEvent (kind :: stack) kind.expectFirst
  | scalar {token : List UInt8} {s : Scalar} : Container.array.MayHold expect → IsScalar token s →
      Takes stack expect token (.scalar s.toJson) stack (expectAfter stack)
  | key {token : List UInt8} {key : String} : Container.object.MayHold expect → IsStringOf token key →
      Takes stack expect token (.key key) stack .colon
  | closing (kind : Container) :
      expect = kind.expectFirst ∨ (expect = .commaOrClose ∧ stack.head? = some kind) →
      Takes stack expect [kind.closing] kind.endEvent stack.tail (expectAfter stack.tail)

/-- A number may not go on behind its token: another byte stands there, or the text is at its end. -/
def EndsNumberToken (t : Tokenizer) (e : Event) (rest : List UInt8) : Prop :=
  ∀ n, e = .scalar (.number n) →
    (∀ b ∈ rest.head?, Lexeme.isNumberByte b = false) ∧ (rest = [] → t.ended = true)

/-- What reading the token at the first byte at hand comes to. -/
inductive Lexes (t : Tokenizer) : Except TokenError (TokenizerStep × Tokenizer) → Prop
  | token {token rest : List UInt8} {e : Event} {stack : List Container} {expect : Expect} :
      t.buffer = token ++ rest → Takes t.stack t.expect token e stack expect → t.EndsNumberToken e rest →
      Lexes t (.ok (.event e, { t.advance token.length with stack := stack, expect := expect }))
  /-- No word for a scalar is longer than five bytes. -/
  | waits : t.ended = false → t.buffer.length ≤ max t.maxTokenBytes 4 → Lexes t (.ok (.needMore, t))
  | tooLong {kind : TokenKind} : t.ended = false → Lexeme.Unfinished t.buffer kind →
      t.maxTokenBytes < t.buffer.length → Lexes t (t.fail (.tooLong kind t.maxTokenBytes))
  | refused {fault : TokenFault} : (∀ kind limit, fault ≠ .tooLong kind limit) → Lexes t (t.fail fault)
  | finished : t.ended = true → t.buffer = [] → t.expect = .finished → Lexes t (.ok (.finished, t))

/-! ### What a pull changes -/

/-- One tokenizer is the other after some bytes, with other containers and expectations. -/
def Advances (t t' : Tokenizer) : Prop :=
  ∃ n ≤ t.buffer.length, ∃ stack expect, t' = { t.advance n with stack := stack, expect := expect }

section Advances

variable {t t' u : Tokenizer}

lemma Advances.refl (t : Tokenizer) : t.Advances t :=
  ⟨0, Nat.zero_le _, t.stack, t.expect, rfl⟩

lemma Advances.trans (h : t.Advances t') (h' : t'.Advances u) : t.Advances u := by
  obtain ⟨m, hm, _, _, rfl⟩ := h
  obtain ⟨n, hn, stack, expect, rfl⟩ := h'
  simp only [advance, List.length_drop] at hn
  exact ⟨m + n, by omega, stack, expect, by simp [advance, Nat.add_assoc]⟩

/-- The end of the text is not noticed by reading on. -/
lemma Advances.ended (h : t.Advances t') : t'.ended = t.ended := by
  obtain ⟨_, _, _, _, rfl⟩ := h
  rfl

/-- The limit on unfinished tokens stays. -/
lemma Advances.maxTokenBytes (h : t.Advances t') : t'.maxTokenBytes = t.maxTokenBytes := by
  obtain ⟨_, _, _, _, rfl⟩ := h
  rfl

/-- The place in the text only moves on. -/
lemma Advances.offset_le (h : t.Advances t') : t.offset ≤ t'.offset := by
  obtain ⟨n, _, _, _, rfl⟩ := h
  exact Nat.le_add_right t.offset n

/-- No byte is added to those at hand. -/
lemma Advances.length_buffer_le (h : t.Advances t') : t'.buffer.length ≤ t.buffer.length := by
  obtain ⟨_, _, _, _, rfl⟩ := h
  simp [advance]

/-- Skipping blanks advances. -/
lemma advances_skipBlanks (t : Tokenizer) : t.Advances t.skipBlanks :=
  ⟨_, (List.takeWhile_sublist _).length_le, t.stack, t.expect, rfl⟩

/-- Skipping blanks and the separator among them advances. -/
lemma advances_skipSeparator (t : Tokenizer) : t.Advances t.skipSeparator := by
  unfold skipSeparator
  dsimp only
  split
  · next x hx =>
    refine (advances_skipBlanks t).trans (Advances.trans ?_ (advances_skipBlanks _))
    have hne : t.skipBlanks.buffer ≠ [] := fun h => by simp [separator?, h] at hx
    exact ⟨1, List.length_pos_iff.2 hne, _, _, rfl⟩
  · exact advances_skipBlanks t

end Advances

variable {t t' : Tokenizer} {b : UInt8} {bytes : List UInt8}

/-! ### Words -/

/-- A word that stands at the beginning is read. -/
lemma lexLiteral_of_begins {word : LiteralWord} (h : word.bytes <+: t.buffer) (value : Json) :
    t.lexLiteral word value = .ok (t.scalar word.bytes.length value) := by
  have htake : t.buffer.take word.bytes.length = word.bytes :=
    (List.prefix_iff_eq_take.1 h).symm
  simp [lexLiteral, htake]

/-- The bytes at hand may be a word that is not complete. -/
lemma lexLiteral_of_cut {word : LiteralWord} (h : t.buffer <+: word.bytes)
    (hne : t.buffer ≠ word.bytes) (value : Json) :
    t.lexLiteral word value =
      if t.ended then t.fail .endInLiteral else .ok (.needMore, t) := by
  have hlt : t.buffer.length < word.bytes.length :=
    Nat.lt_of_le_of_ne h.length_le fun hlen => hne (h.eq_of_length hlen)
  have htake : t.buffer.take word.bytes.length = t.buffer := List.take_of_length_le (Nat.le_of_lt hlt)
  simp only [lexLiteral, htake, ← List.prefix_iff_eq_take.1 h, ne_eq, not_true_eq_false, if_false,
    if_pos hlt]

/-- Other bytes than those of a word are refused. -/
lemma lexLiteral_of_differs {word : LiteralWord} (h : ¬ word.bytes <+: t.buffer)
    (h' : ¬ t.buffer <+: word.bytes) (value : Json) :
    t.lexLiteral word value = t.fail (.badLiteral word) := by
  unfold lexLiteral
  rw [if_pos]
  intro heq
  rcases Nat.le_total word.bytes.length t.buffer.length with hlen | hlen
  · rw [List.length_take, Nat.min_eq_left hlen, List.take_length] at heq
    exact h (List.prefix_iff_eq_take.2 heq.symm)
  · rw [List.take_of_length_le hlen] at heq
    exact h' (List.prefix_iff_eq_take.2 heq)

/-! ### Tokens -/

/-- An unfinished token waits for more bytes, unless the text has ended or the token is too long. -/
lemma lexes_incomplete {kind : TokenKind} (h : Lexeme.Unfinished t.buffer kind) :
    t.Lexes (t.incomplete kind) := by
  unfold incomplete
  split
  · exact .refused (by simp)
  next hended =>
  have hended : t.ended = false := by simpa using hended
  split
  · next hlong => exact .tooLong hended h hlong
  · next hlong => exact .waits hended (Nat.le_trans (Nat.not_lt.1 hlong) (Nat.le_max_left _ _))

/-- The bytes of a scalar where a value may stand are lexed as this scalar. -/
lemma lexes_scalar (hexpect : Container.array.MayHold t.expect) {n : Nat} (hn : n ≤ t.buffer.length)
    {s : Scalar} (hs : IsScalar (t.buffer.take n) s)
    (hend : t.EndsNumberToken (.scalar s.toJson) (t.buffer.drop n)) : t.Lexes (.ok (t.scalar n s.toJson)) := by
  have htoken := Lexes.token (List.take_append_drop n t.buffer).symm (.scalar hexpect hs) hend
  rwa [List.length_take, Nat.min_eq_left hn] at htoken

/-- A string is lexed by what is done with its text, wherever its bytes end. -/
lemma lexes_lexString (hquote : t.buffer.head? = some Json.StringToken.quote)
    {next : String → Nat → TokenizerStep × Tokenizer}
    (hnext : ∀ text n, n ≤ t.buffer.length → IsStringOf (t.buffer.take n) text → t.Lexes (.ok (next text n))) :
    t.Lexes (t.lexString next) := by
  unfold lexString
  split
  · next hlen => exact lexes_incomplete (.string hquote hlen)
  next n hlen =>
  dsimp only
  split
  · next text hdecode =>
    have hne : t.buffer ≠ [] := by
      rintro hnil
      rw [hnil] at hquote
      cases hquote
    exact hnext text n (Lexeme.stringLength?_le hne hlen).2 (Lexeme.isStringOf_of_decode hquote hlen hdecode)
  · exact .refused (by simp)

/-- A quote where a key may stand is lexed as the beginning of a key. -/
lemma lexes_lexKey (hquote : t.buffer.head? = some Json.StringToken.quote)
    (hexpect : Container.object.MayHold t.expect) : t.Lexes t.lexKey := by
  refine lexes_lexString hquote fun text n hn hkey => ?_
  have htoken := Lexes.token (List.take_append_drop n t.buffer).symm (.key hexpect hkey) nofun
  rwa [List.length_take, Nat.min_eq_left hn] at htoken

/-- A sign or a digit where a value may stand is lexed as the beginning of a number. -/
lemma lexes_lexNumber (hb : t.buffer = b :: bytes) (hbegins : Lexeme.beginsNumber b = true)
    (hexpect : Container.array.MayHold t.expect) : t.Lexes t.lexNumber := by
  have hprefix := List.takeWhile_prefix (l := t.buffer) Lexeme.isNumberByte
  have hsplit := List.takeWhile_append_dropWhile (p := Lexeme.isNumberByte) (l := t.buffer)
  have hdrop : t.buffer.drop (t.buffer.takeWhile Lexeme.isNumberByte).length =
      t.buffer.dropWhile Lexeme.isNumberByte :=
    (congrArg (List.drop _) hsplit).symm.trans List.drop_left
  unfold lexNumber
  dsimp only
  rw [hdrop]
  split
  · next hopen =>
    obtain ⟨hopen, -⟩ := Bool.and_eq_true_iff.1 hopen
    refine lexes_incomplete (.number ⟨b, bytes, hb, hbegins⟩ ?_)
    exact List.dropWhile_eq_nil_iff.1 (List.isEmpty_iff.1 hopen)
  next hclosed =>
  split
  · next n hdecode =>
    refine lexes_scalar hexpect (s := .number n) hprefix.length_le ?_ ?_
    · rw [← List.prefix_iff_eq_take.1 hprefix]
      exact .number (Json.isNumberOf_of_decode? hdecode)
    · rw [hdrop]
      intro _ _
      refine ⟨fun x hx => ?_, fun hnil => by simpa [hnil] using hclosed⟩
      have hhead := List.head?_dropWhile_not Lexeme.isNumberByte t.buffer
      rwa [Option.mem_def.1 hx] at hhead
  · exact .refused (by simp)

/-- The first letter of a literal word is lexed as the beginning of this word where a value may stand. -/
lemma lexes_lexLiteral (word : LiteralWord) {s : Scalar} (hs : IsScalar word.bytes s)
    (hnumber : ∀ n, s.toJson ≠ .number n) (hexpect : Container.array.MayHold t.expect) :
    t.Lexes (t.lexLiteral word s.toJson) := by
  by_cases hword : word.bytes <+: t.buffer
  · rw [lexLiteral_of_begins hword]
    refine lexes_scalar hexpect hword.length_le ?_ ?_
    · rwa [← List.prefix_iff_eq_take.1 hword]
    · intro n hn
      exact absurd (Event.scalar.inj hn) (hnumber n)
  by_cases hcut : t.buffer <+: word.bytes
  · have hne : t.buffer ≠ word.bytes := fun heq => hword (heq ▸ List.prefix_rfl)
    have hlt : t.buffer.length < word.bytes.length :=
      Nat.lt_of_le_of_ne hcut.length_le fun hlen => hne (hcut.eq_of_length hlen)
    have hfive : word.bytes.length ≤ 5 := by cases word <;> decide
    rw [lexLiteral_of_cut hcut hne]
    split
    · exact .refused (by simp)
    · next hended => exact .waits (by simpa using hended) (by omega)
  · rw [lexLiteral_of_differs hword hcut]
    exact .refused (by simp)

/-- An opening bracket is lexed where a value may stand. -/
lemma lexes_opening (kind : Container) (hb : t.buffer = kind.opening :: bytes)
    (hexpect : Container.array.MayHold t.expect) : t.Lexes (.ok (t.openContainer kind)) := by
  have htoken := @Lexes.token t [kind.opening] bytes _ _ _ hb (.opening kind hexpect) (by cases kind <;> nofun)
  cases kind <;> exact htoken

/-- A closing bracket is lexed right behind its opening one, or behind a value of the container that it closes. -/
lemma lexes_closing (kind : Container) (hb : t.buffer = kind.closing :: bytes)
    (hexpect : t.expect = kind.expectFirst ∨ (t.expect = .commaOrClose ∧ t.stack.head? = some kind)) :
    t.Lexes (.ok (t.closeContainer kind.endEvent)) :=
  @Lexes.token t [kind.closing] bytes _ _ _ hb (.closing kind hexpect) (by cases kind <;> nofun)

/-- Whatever its first byte, a value is lexed where one may stand. -/
lemma lexes_lexValue (hb : t.buffer = b :: bytes) (hexpect : Container.array.MayHold t.expect) :
    t.Lexes (t.lexValue b) := by
  unfold lexValue
  split
  · next hbyte => exact lexes_opening .object (hbyte ▸ hb) hexpect
  split
  · next hbyte => exact lexes_opening .array (hbyte ▸ hb) hexpect
  split
  · next hbyte =>
    refine lexes_lexString (by rw [hb, hbyte]; rfl) fun text n hn hs => ?_
    exact lexes_scalar hexpect (s := .string text) hn (.string hs) nofun
  split
  · next hbegins => exact lexes_lexNumber hb hbegins hexpect
  split
  · exact lexes_lexLiteral .trueWord .true nofun hexpect
  split
  · exact lexes_lexLiteral .falseWord .false nofun hexpect
  split
  · exact lexes_lexLiteral .nullWord .null nofun hexpect
  · exact .refused (by simp)

/-- Whatever its first byte, what comes next is lexed in every state. -/
lemma lexes_lexNext (hb : t.buffer = b :: bytes) : t.Lexes (t.lexNext b) := by
  have hkey : Container.object.MayHold t.expect → b = 0x22 → t.Lexes t.lexKey := fun hexpect hbyte =>
    lexes_lexKey (by rw [hb, hbyte]; rfl) hexpect
  unfold lexNext
  split
  · next hexpect => exact lexes_lexValue hb (.inr hexpect)
  · next hexpect =>
    split
    · next hbyte => exact lexes_closing .array (hbyte ▸ hb) (.inl hexpect)
    · exact lexes_lexValue hb (.inl hexpect)
  · next hexpect =>
    split
    · next hbyte => exact hkey (.inr hexpect) hbyte
    · exact .refused (by simp)
  · next hexpect =>
    split
    · next hbyte => exact lexes_closing .object (hbyte ▸ hb) (.inl hexpect)
    split
    · next hbyte => exact hkey (.inl hexpect) hbyte
    · exact .refused (by simp)
  · exact .refused (by simp)
  · next hexpect =>
    split
    · next hstack =>
      split
      · next hbyte => exact lexes_closing .object (hbyte ▸ hb) (.inr ⟨hexpect, by rw [hstack]; rfl⟩)
      · exact .refused (by simp)
    · next hstack =>
      split
      · next hbyte => exact lexes_closing .array (hbyte ▸ hb) (.inr ⟨hexpect, by rw [hstack]; rfl⟩)
      · exact .refused (by simp)
    · exact .refused (by simp)
  · exact .refused (by simp)

/-! ### Pulls -/

/-- Reading what the first byte at hand begins. -/
lemma lex_of_cons (hb : t.buffer = b :: bytes) : t.lex = t.lexNext b := by
  simp [lex, hb]

/-- What a pull comes to, behind the blanks and the separator that it skips. -/
theorem lexes_pull (t : Tokenizer) : t.skipSeparator.Lexes t.pull := by
  unfold pull
  generalize t.skipSeparator = t
  cases hb : t.buffer with
  | cons b bytes =>
    rw [lex_of_cons hb]
    exact lexes_lexNext hb
  | nil =>
    rw [lex, hb]
    dsimp only
    split
    · next hended => exact .waits (by simpa using hended) (by simp [hb])
    next hended =>
    split
    · next hexpect => exact .finished (by simpa using hended) hb hexpect
    · exact .refused (by simp)

/-- An event is that of the token that is skipped to. -/
lemma token_of_event {e : Event} (h : t.pull = .ok (.event e, t')) :
    ∃ token, t.skipSeparator.buffer = token ++ t'.buffer ∧
      t'.offset = t.skipSeparator.offset + token.length ∧
      Takes t.skipSeparator.stack t.skipSeparator.expect token e t'.stack t'.expect ∧
      t.skipSeparator.EndsNumberToken e t'.buffer := by
  have hlexes := lexes_pull t
  generalize t.pull = r at h hlexes
  cases hlexes with
  | @token token rest e' stack expect hb htakes hend =>
    obtain ⟨he, rfl⟩ := Prod.mk.inj (Except.ok.inj h)
    cases he
    have hrest : (t.skipSeparator.advance token.length).buffer = rest := by simp [advance, hb]
    exact ⟨token, by rw [hrest]; exact hb, rfl, htakes, by rwa [hrest]⟩
  | waits | tooLong | refused | finished => cases h

/-- A pull waits for more bytes where little is left over: an unfinished token within the limit, or the beginning
of a word. -/
lemma waits_of_needMore (h : t.pull = .ok (.needMore, t')) :
    t' = t.skipSeparator ∧ t.ended = false ∧ t'.buffer.length ≤ max t.maxTokenBytes 4 := by
  have hadv := advances_skipSeparator t
  have hlexes := lexes_pull t
  generalize t.pull = r at h hlexes
  cases hlexes with
  | waits hended hle =>
    obtain ⟨-, rfl⟩ := Prod.mk.inj (Except.ok.inj h)
    exact ⟨rfl, hadv.ended ▸ hended, hadv.maxTokenBytes ▸ hle⟩
  | token | tooLong | refused | finished => cases h

/-- A run is through where nothing is left and nothing is expected. -/
lemma ends_of_finished (h : t.pull = .ok (.finished, t')) :
    t' = t.skipSeparator ∧ t.ended = true ∧ t'.buffer = [] ∧ t'.expect = .finished := by
  have hadv := advances_skipSeparator t
  have hlexes := lexes_pull t
  generalize t.pull = r at h hlexes
  cases hlexes with
  | finished hended hbuffer hexpect =>
    obtain ⟨-, rfl⟩ := Prod.mk.inj (Except.ok.inj h)
    exact ⟨rfl, hadv.ended ▸ hended, hbuffer, hexpect⟩
  | token | tooLong | refused | waits => cases h

/-- A fault is found at the first byte of the token. -/
lemma offset_of_error {e : TokenError} (h : t.pull = .error e) : e.offset = t.skipSeparator.offset := by
  have hlexes := lexes_pull t
  generalize t.pull = r at h hlexes
  cases hlexes with
  | tooLong | refused =>
    cases h
    rfl
  | token | waits | finished => cases h

/-- A token beyond the limit fills the bytes at hand and does not end in them. -/
lemma unfinished_of_tooLong {e : TokenError} {kind : TokenKind} {limit : Nat} (h : t.pull = .error e)
    (hfault : e.fault = .tooLong kind limit) :
    Lexeme.Unfinished t.skipSeparator.buffer kind ∧ t.maxTokenBytes < t.skipSeparator.buffer.length := by
  have hadv := advances_skipSeparator t
  have hlexes := lexes_pull t
  generalize t.pull = r at h hlexes
  cases hlexes with
  | tooLong _ hunfinished hlong =>
    cases h
    cases hfault
    exact ⟨hunfinished, hadv.maxTokenBytes ▸ hlong⟩
  | refused hfault' =>
    cases h
    exact absurd hfault (hfault' kind limit)
  | token | waits | finished => cases h

/-- A pull uses some of the bytes at hand, and besides changes only what is open and what may come next. -/
theorem advances_of_pull {step : TokenizerStep} (h : t.pull = .ok (step, t')) : t.Advances t' := by
  refine (advances_skipSeparator t).trans ?_
  have hlexes := lexes_pull t
  generalize t.pull = r at h hlexes
  cases hlexes with
  | @token token rest _ _ _ hb =>
    obtain ⟨-, rfl⟩ := Prod.mk.inj (Except.ok.inj h)
    have hle : token.length ≤ t.skipSeparator.buffer.length := by
      rw [hb, List.length_append]
      exact Nat.le_add_right _ _
    exact ⟨token.length, hle, _, _, rfl⟩
  | waits | finished =>
    obtain ⟨-, rfl⟩ := Prod.mk.inj (Except.ok.inj h)
    exact .refl _
  | tooLong | refused => cases h

/-- An event uses bytes at hand. -/
lemma offset_lt_of_event {e : Event} (h : t.pull = .ok (.event e, t')) :
    t.offset < t'.offset ∧ t'.offset + t'.buffered = t.offset + t.buffered := by
  have hlt := length_buffer_of_event h
  obtain ⟨n, hn, stack, expect, rfl⟩ := advances_of_pull h
  simp only [advance, buffered, List.length_drop] at hlt ⊢
  omega

/-- At the end of the text no pull waits. -/
lemma pull_ne_needMore (hended : t.ended = true) : t.pull ≠ .ok (.needMore, t') := by
  intro h
  obtain ⟨-, hopen, -⟩ := waits_of_needMore h
  rw [hended] at hopen
  cases hopen

/-- Before the end of the text no pull ends the run. -/
lemma pull_ne_finished (hended : t.ended = false) : t.pull ≠ .ok (.finished, t') := by
  intro h
  obtain ⟨-, hclosed, -⟩ := ends_of_finished h
  rw [hended] at hclosed
  cases hclosed

end Tokenizer

end EntityDump
