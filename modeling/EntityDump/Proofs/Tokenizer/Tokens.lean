import EntityDump.Proofs.Tokenizer.Position
/-!
# The strings and numbers of a file

`Lexeme.tokens` lists the string and number tokens of a file, whether it is well-formed or not: a string goes from
its quote up to the closing one, or to the end of the file where there is none, and a number as far as number bytes
go. What a tokenizer uses for an event is the next of these tokens, or no part of one (`Tokenizer.Takes.tokens_append`),
and a token that does not end in the bytes at hand is at least as long as these (`exists_tokens_of_unfinished`).
-/

namespace EntityDump

open Json (Event Scalar)
open Json.Grammar

/-- The event is that of a string or a number. -/
def Json.Event.hasToken : Event → Bool
  | .key _ | .scalar (.string _) | .scalar (.number _) => true
  | _ => false

namespace Lexeme

open Json.StringToken (quote)

/-- The byte begins a string or a number. -/
def beginsToken (b : UInt8) : Bool :=
  b == quote || beginsNumber b

/-- The length of the string or number that the bytes begin with, or zero. A string without its closing quote
goes to the end. -/
def tokenLength : List UInt8 → Nat
  | [] => 0
  | b :: rest =>
    if b = quote then (stringLength? (b :: rest)).getD (b :: rest).length
    else if beginsNumber b then ((b :: rest).takeWhile isNumberByte).length
    else 0

/-- The strings and numbers one after the other. Other bytes are passed over. -/
def tokens : List UInt8 → List (List UInt8)
  | [] => []
  | b :: rest =>
    match tokenLength (b :: rest) with
    | 0 => tokens rest
    | n + 1 => (b :: rest.take n) :: tokens (rest.drop n)
termination_by bytes => bytes.length
decreasing_by all_goals grind

/-- The token is that of the event. -/
inductive Denotes : List UInt8 → Event → Prop
  | key {token : List UInt8} {key : String} : IsStringOf token key → Denotes token (.key key)
  | string {token : List UInt8} {text : String} : IsStringOf token text → Denotes token (.scalar (.string text))
  | number {token : List UInt8} {n : Json.Number} : IsNumberOf token n → Denotes token (.scalar (.number n))

variable {token rest more bytes : List UInt8} {b : UInt8} {e : Event} {kind : TokenKind}

/-! ### The first token -/

/-- Bytes that do not begin a token are passed over. -/
lemma tokens_cons_of_tokenLength (h : tokenLength (b :: rest) = 0) : tokens (b :: rest) = tokens rest := by
  rw [tokens, h]

/-- A token at the beginning comes first. -/
lemma tokens_eq_cons (hne : tokenLength bytes ≠ 0) :
    tokens bytes = bytes.take (tokenLength bytes) :: tokens (bytes.drop (tokenLength bytes)) := by
  cases bytes with
  | nil => exact absurd rfl hne
  | cons b rest =>
    obtain ⟨n, hn⟩ := Nat.exists_eq_succ_of_ne_zero hne
    rw [tokens, hn]
    rfl

/-- A token that ends before the rest is the first of the tokens. -/
lemma tokens_append_of_tokenLength (hne : token ≠ []) (h : tokenLength (token ++ rest) = token.length) :
    tokens (token ++ rest) = token :: tokens rest := by
  rw [tokens_eq_cons (by rw [h]; exact mt List.length_eq_zero_iff.1 hne), h, List.take_left, List.drop_left]

/-- A token that begins with a quote ends with its string, or with the text. -/
lemma tokenLength_quote (rest : List UInt8) :
    tokenLength (quote :: rest) = (stringLength? (quote :: rest)).getD (quote :: rest).length := by
  rw [tokenLength, if_pos rfl]

/-- A token that begins as a number ends before the first byte that is not of one. -/
lemma tokenLength_of_beginsNumber (h : beginsNumber b = true) (rest : List UInt8) :
    tokenLength (b :: rest) = ((b :: rest).takeWhile isNumberByte).length := by
  have hquote : b ≠ quote := ne_of_beginsNumber h rfl
  rw [tokenLength, if_neg hquote, if_pos h]

/-- Bytes that begin neither a string nor a number are passed over. -/
lemma tokens_append_of_other (h : bytes.any beginsToken = false) (rest : List UInt8) :
    tokens (bytes ++ rest) = tokens rest := by
  induction bytes with
  | nil => rfl
  | cons b bytes ih =>
    rw [List.any_cons, Bool.or_eq_false_iff] at h
    obtain ⟨hb, h⟩ := h
    obtain ⟨hquote, hnumber⟩ := Bool.or_eq_false_iff.1 hb
    have hnone : tokenLength (b :: (bytes ++ rest)) = 0 := by
      rw [tokenLength, if_neg (by simpa using hquote), if_neg (by simp [hnumber])]
    rw [List.cons_append, tokens_cons_of_tokenLength hnone, ih h]

/-! ### Tokens of the grammar -/

/-- A string is a token by itself, whatever follows. -/
lemma tokens_append_of_isString (h : IsString token) (rest : List UInt8) :
    tokens (token ++ rest) = token :: tokens rest := by
  have hlength := stringLength?_of_isString h rest
  obtain ⟨hchars⟩ := h
  refine tokens_append_of_tokenLength (List.cons_ne_nil _ _) ?_
  exact (tokenLength_quote _).trans (congrArg (Option.getD · _) hlength)

/-- A number is a token by itself, unless a byte of a number follows. -/
lemma tokens_append_of_isNumber (h : IsNumber token) (hrest : ∀ b ∈ rest.head?, isNumberByte b = false) :
    tokens (token ++ rest) = token :: tokens rest := by
  have htake := takeWhile_of_isNumber h hrest
  obtain ⟨b, tail, rfl, hbegins⟩ := exists_beginsNumber h
  refine tokens_append_of_tokenLength (List.cons_ne_nil _ _) ?_
  exact (tokenLength_of_beginsNumber hbegins _).trans (congrArg List.length htake)

/-! ### Tokens that do not end -/

/-- A quote that is not among the bytes stands behind them. -/
lemma lt_of_closingQuote_append {seen n : Nat} (h : closingQuote seen bytes = none)
    (hn : closingQuote seen (bytes ++ more) = some n) : seen + bytes.length < n := by
  fun_induction closingQuote seen bytes with
  | case1 => exact (closingQuote_le hn).1
  | case2 => cases h
  | case3 seen =>
    cases more with
    | nil => cases hn
    | cons b more =>
      have hlt := (closingQuote_le ((closingQuote_backslash seen b more).symm.trans hn)).1
      simp only [List.length_singleton]
      omega
  | case4 seen b rest _ ih =>
    have hlt := ih h ((closingQuote_backslash seen b (rest ++ more)).symm.trans hn)
    simp only [List.length_cons]
    omega
  | case5 seen b rest hquote hescape ih =>
    have hlt := ih h ((closingQuote_of_ne hquote hescape seen (rest ++ more)).symm.trans hn)
    simp only [List.length_cons]
    omega

/-- A token that does not end in the bytes at hand is as long as these, whatever comes behind them. -/
lemma le_tokenLength_of_unfinished (h : Unfinished bytes kind) (more : List UInt8) :
    bytes ≠ [] ∧ bytes.length ≤ tokenLength (bytes ++ more) := by
  cases h with
  | string hquote hnone =>
    obtain ⟨rest, rfl⟩ := List.head?_eq_some_iff.1 hquote
    refine ⟨List.cons_ne_nil _ _, ?_⟩
    rw [List.cons_append, tokenLength_quote]
    cases hlength : stringLength? (quote :: (rest ++ more)) with
    | none => simp
    | some n =>
      have hlt := lt_of_closingQuote_append hnone hlength
      simp only [List.drop_succ_cons, List.drop_zero] at hlt
      simp only [List.length_cons, Option.getD_some]
      omega
  | number hbegins hall =>
    obtain ⟨b, rest, rfl, hb⟩ := hbegins
    refine ⟨List.cons_ne_nil _ _, ?_⟩
    rw [List.cons_append, tokenLength_of_beginsNumber hb, ← List.cons_append, List.takeWhile_append_of_pos hall,
      List.length_append]
    exact Nat.le_add_right _ _

/-- Bytes of an unfinished token stand in one token, however the text goes on. -/
lemma exists_tokens_of_unfinished (h : Unfinished bytes kind) (more : List UInt8) :
    ∃ token ∈ tokens (bytes ++ more), bytes.length ≤ token.length := by
  obtain ⟨hne, hle⟩ := le_tokenLength_of_unfinished h more
  have hpos := List.length_pos_iff.2 hne
  rw [tokens_eq_cons (by omega)]
  refine ⟨_, List.mem_cons_self, ?_⟩
  rw [List.length_take, List.length_append]
  omega

end Lexeme

/-! ### What a tokenizer uses -/

namespace Tokenizer

open Lexeme (tokens Denotes)

variable {t : Tokenizer} {token : List UInt8} {e : Event} {stack stack' : List Container}
  {expect expect' : Expect}

/-- Blanks are no part of a token. -/
lemma tokens_skipBlanks (t : Tokenizer) (rest : List UInt8) :
    tokens (t.skipBlanks.buffer ++ rest) = tokens (t.buffer ++ rest) := by
  have hblank : (t.buffer.takeWhile Lexeme.isBlank).any Lexeme.beginsToken = false := by
    rw [List.any_eq_false]
    intro b hb
    rcases isBlank_iff.1 (List.all_eq_true.1 List.all_takeWhile b hb) with rfl | rfl | rfl | rfl <;> decide
  conv_rhs => rw [← t.takeWhile_append_skipBlanks, List.append_assoc, Lexeme.tokens_append_of_other hblank]

/-- Neither are separators. -/
lemma tokens_skipSeparator (t : Tokenizer) (rest : List UInt8) :
    tokens (t.skipSeparator.buffer ++ rest) = tokens (t.buffer ++ rest) := by
  cases hsep : t.skipBlanks.separator? with
  | none => rw [skipSeparator_of_none hsep, tokens_skipBlanks]
  | some x =>
    obtain ⟨b, bytes, hb, hother⟩ : ∃ b bytes, t.skipBlanks.buffer = [b] ++ bytes ∧
        [b].any Lexeme.beginsToken = false := by
      rcases separator?_cases hsep with ⟨bytes, hb, -⟩ | ⟨bytes, -, -, hb, -⟩
      · exact ⟨_, bytes, hb, rfl⟩
      · exact ⟨_, bytes, hb, rfl⟩
    have hbehind : ({ t.skipBlanks.advance 1 with expect := x } : Tokenizer).buffer = bytes := by
      simp [advance, hb]
    rw [skipSeparator_of_some hsep, tokens_skipBlanks, hbehind, ← tokens_skipBlanks t, hb, List.append_assoc,
      Lexeme.tokens_append_of_other hother]

/-- What is used for an event is the next token, or no part of one. -/
lemma Takes.tokens_append (h : Takes stack expect token e stack' expect') {rest : List UInt8}
    (hrest : ∀ n, e = .scalar (.number n) → ∀ b ∈ rest.head?, Lexeme.isNumberByte b = false) :
    (e.hasToken = true ∧ Denotes token e ∧ tokens (token ++ rest) = token :: tokens rest) ∨
      (e.hasToken = false ∧ tokens (token ++ rest) = tokens rest) := by
  rcases h with ⟨kind, -⟩ | ⟨-, hs⟩ | ⟨-, hkey⟩ | ⟨kind, -⟩
  · cases kind <;> exact .inr ⟨rfl, Lexeme.tokens_append_of_other rfl rest⟩
  · cases hs with
    | null | true | false => exact .inr ⟨rfl, Lexeme.tokens_append_of_other rfl rest⟩
    | @number _ n hn => exact .inl ⟨rfl, .number hn, Lexeme.tokens_append_of_isNumber hn.1 (hrest n rfl)⟩
    | string hstring => exact .inl ⟨rfl, .string hstring, Lexeme.tokens_append_of_isString hstring.1 rest⟩
  · exact .inl ⟨rfl, .key hkey, Lexeme.tokens_append_of_isString hkey.1 rest⟩
  · cases kind <;> exact .inr ⟨rfl, Lexeme.tokens_append_of_other rfl rest⟩

end Tokenizer

end EntityDump
