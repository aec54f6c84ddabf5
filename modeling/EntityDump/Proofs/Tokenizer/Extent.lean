import EntityDump.Proofs.Json.NumberToken
import EntityDump.Proofs.Json.StringToken
import EntityDump.Tokenizer.Lexeme
/-!
# The extent of the tokens of the grammar

Where a token of the grammar stands at the beginning of some bytes, its extent is found: a string token ends
at its closing quote (`stringLength?_of_isString`), a number token where no further number byte stands
(`takeWhile_of_isNumber`). The other way round, a token that is cut out and decoded is one of the grammar
(`isStringOf_of_decode`).
-/

namespace EntityDump.Lexeme

open Json Json.Grammar
open Json.StringToken (quote backslash)

/-! ### Strings -/

/-- Bytes that are neither quotes nor backslashes are passed over. -/
lemma closingQuote_append_of_ne {piece : List UInt8} (h : ∀ b ∈ piece, b ≠ quote ∧ b ≠ backslash)
    (seen : Nat) (rest : List UInt8) :
    closingQuote seen (piece ++ rest) = closingQuote (seen + piece.length) rest := by
  induction piece generalizing seen with
  | nil => rfl
  | cons b piece ih =>
    obtain ⟨⟨hquote, hescape⟩, h⟩ := List.forall_mem_cons.1 h
    rw [List.cons_append, closingQuote_of_ne hquote hescape, ih h, List.length_cons]
    congr 1
    omega

/-- The bytes of a character that is neither a quote nor a backslash are neither. -/
lemma ne_of_mem_utf8EncodeChar {c : Char} (hquote : c ≠ '"') (hescape : c ≠ '\\') :
    ∀ b ∈ String.utf8EncodeChar c, b ≠ quote ∧ b ≠ backslash := by
  rcases Nat.lt_or_ge c.toNat 0x80 with h | h
  · rw [utf8EncodeChar_of_lt h]
    simp only [List.mem_singleton, forall_eq]
    refine ⟨fun hb => hquote ?_, fun hb => hescape ?_⟩
    all_goals
      have hmod := congrArg UInt8.toNat hb
      simp [quote, backslash] at hmod
      exact Char.toNat_inj.1 (by simp; omega)
  · -- Such a character has no ASCII byte.
    obtain ⟨b, tail, he, hb, htail⟩ := utf8EncodeChar_of_le h
    have hlarge : ∀ x ∈ String.utf8EncodeChar c, 0x80 ≤ x.toNat := by
      rw [he]
      rintro x (_ | ⟨_, hx⟩)
      · omega
      · exact (htail x hx).1
    refine fun x hx => ⟨?_, ?_⟩ <;> rintro rfl <;> exact absurd (hlarge _ hx) (by decide)

/-- Hexadecimal digits are neither quotes nor backslashes. -/
lemma ne_of_isHexDigit {b : UInt8} (h : IsHexDigit b) : b ≠ quote ∧ b ≠ backslash := by
  constructor <;> rintro rfl <;> exact absurd h (by unfold IsHexDigit IsDigit; decide)

/-- The characters of a string are passed over, up to the quote behind them. -/
lemma closingQuote_of_isChars {s : List UInt8} (h : IsChars s) (seen : Nat) (rest : List UInt8) :
    closingQuote seen (s ++ quote :: rest) = some (seen + s.length + 1) := by
  induction h generalizing seen with
  | nil => exact closingQuote_quote seen rest
  | unescaped hcontrol hquote hescape _ ih =>
    rw [List.append_assoc, closingQuote_append_of_ne (ne_of_mem_utf8EncodeChar hquote hescape), ih,
      List.length_append]
    congr 1
    omega
  | escape _ _ ih =>
    rw [List.cons_append, List.cons_append]
    refine (closingQuote_backslash _ _ _).trans ?_
    rw [ih]
    simp only [List.length_cons]
    congr 1
    omega
  | @hex a b c d s ha hb hc hd _ ih =>
    have hdigits : ∀ x ∈ [a, b, c, d], x ≠ quote ∧ x ≠ backslash := by
      simp only [List.mem_cons, List.not_mem_nil, or_false, forall_eq_or_imp, forall_eq]
      exact ⟨ne_of_isHexDigit ha, ne_of_isHexDigit hb, ne_of_isHexDigit hc, ne_of_isHexDigit hd⟩
    refine (closingQuote_backslash _ _ ([a, b, c, d] ++ (s ++ quote :: rest))).trans ?_
    rw [closingQuote_append_of_ne hdigits, ih]
    simp only [List.length_cons, List.length_nil]
    congr 1
    omega

/-- A string token at the beginning is found. -/
lemma stringLength?_of_isString {token : List UInt8} (h : IsString token) (rest : List UInt8) :
    stringLength? (token ++ rest) = some token.length := by
  obtain ⟨hchars⟩ := h
  rw [stringLength?, List.cons_append, List.drop_succ_cons, List.drop_zero, List.append_assoc,
    List.singleton_append]
  refine (closingQuote_of_isChars hchars 1 rest).trans ?_
  simp
  omega

/-- A token that is cut out and decoded is a string of the grammar. -/
lemma isStringOf_of_decode {bytes : List UInt8} {n : Nat} {text : String}
    (hquote : bytes.head? = some quote) (hlen : stringLength? bytes = some n)
    (h : StringToken.decode (bytes.take n) = .ok text) : IsStringOf (bytes.take n) text := by
  obtain ⟨hpos, hle⟩ := stringLength?_le (by rintro rfl; cases hquote) hlen
  refine ⟨?_, h⟩
  obtain ⟨chars, rest, hdrop, hchars⟩ := StringToken.isChars_of_decode h
  have htoken : bytes.take n = quote :: (chars ++ quote :: rest) := by
    obtain ⟨b, tail, rfl⟩ := List.exists_cons_of_ne_nil (l := bytes) (by rintro rfl; cases hquote)
    obtain rfl : b = quote := by simpa using hquote
    obtain ⟨k, rfl⟩ := Nat.exists_eq_succ_of_ne_zero (Nat.pos_iff_ne_zero.1 hpos)
    rw [List.take_succ_cons, List.drop_succ_cons, List.drop_zero] at hdrop
    rw [List.take_succ_cons, hdrop]
  -- Nothing stands behind the closing quote, since the token ends with the first one.
  have hfound : stringLength? bytes = some (chars.length + 2) := by
    have hbegins := stringLength?_of_isString (.mk hchars) (rest ++ bytes.drop n)
    have hbytes : bytes = (0x22 :: (chars ++ [0x22])) ++ (rest ++ bytes.drop n) := by
      conv_lhs => rw [← List.take_append_drop n bytes, htoken]
      simp [quote]
    rw [hbytes, hbegins]
    simp
  have hn : n = chars.length + 2 := Option.some.inj (hlen.symm.trans hfound)
  have hrest : rest = [] := by
    have hlength := congrArg List.length htoken
    simp only [List.length_take, List.length_cons, List.length_append] at hlength
    exact List.length_eq_zero_iff.1 (by omega)
  rw [htoken, hrest]
  exact .mk hchars

/-! ### Numbers -/

/-- A digit can stand in a number. -/
lemma isNumberByte_of_isDigit {b : UInt8} (h : IsDigit b) : isNumberByte b = true := by
  simp [isNumberByte, h.1, h.2]

/-- A sign can stand in a number. -/
lemma isNumberByte_of_isSign {s : List UInt8} (h : IsSign s) : ∀ b ∈ s, isNumberByte b = true := by
  rcases h with rfl | rfl | rfl <;> simp [isNumberByte]

/-- A fraction holds bytes of numbers alone. -/
lemma isNumberByte_of_isFraction {s : List UInt8} (h : IsFraction s) :
    ∀ b ∈ s, isNumberByte b = true := by
  cases h with
  | absent => simp
  | present hdigits =>
    exact List.forall_mem_cons.2 ⟨by decide, fun b hb => isNumberByte_of_isDigit (hdigits.2 b hb)⟩

/-- An exponent holds bytes of numbers alone. -/
lemma isNumberByte_of_isExponent {s : List UInt8} (h : IsExponent s) :
    ∀ b ∈ s, isNumberByte b = true := by
  cases h with
  | absent => simp
  | present he hsign hdigits =>
    refine List.forall_mem_cons.2 ⟨by rcases he with rfl | rfl <;> decide, ?_⟩
    refine List.forall_mem_append.2 ⟨isNumberByte_of_isSign hsign, fun b hb => ?_⟩
    exact isNumberByte_of_isDigit (hdigits.2 b hb)

/-- The bytes of a number can stand in a number. -/
lemma isNumberByte_of_isNumber {token : List UInt8} (h : IsNumber token) :
    ∀ b ∈ token, isNumberByte b = true := by
  obtain ⟨hminus, hwhole, hfraction, hexponent⟩ := h
  refine List.forall_mem_append.2 ⟨?_, List.forall_mem_append.2 ⟨?_, List.forall_mem_append.2
    ⟨isNumberByte_of_isFraction hfraction, isNumberByte_of_isExponent hexponent⟩⟩⟩
  · rcases hminus with rfl | rfl <;> simp [isNumberByte]
  · exact fun b hb => isNumberByte_of_isDigit (hwhole.1.2 b hb)

/-- A number begins with a minus sign or a digit. -/
lemma exists_beginsNumber {token : List UInt8} (h : IsNumber token) :
    ∃ b s, token = b :: s ∧ beginsNumber b = true := by
  obtain ⟨hminus, hwhole, -, -⟩ := h
  rcases hminus with rfl | rfl
  · obtain ⟨b, s, rfl⟩ := List.exists_cons_of_ne_nil hwhole.1.1
    obtain ⟨hlow, hhigh⟩ := hwhole.1.2 b (by simp)
    exact ⟨b, _, rfl, by simp [beginsNumber, hlow, hhigh]⟩
  · exact ⟨0x2d, _, rfl, by decide⟩

/-- A byte that begins a number differs from one that does not. -/
lemma ne_of_beginsNumber {b x : UInt8} (hb : beginsNumber b = true) (hx : beginsNumber x = false) :
    b ≠ x := by
  rintro rfl
  rw [hb] at hx
  cases hx

/-- A blank begins no number. -/
lemma isBlank_of_beginsNumber {b : UInt8} (hb : beginsNumber b = true) : isBlank b = false := by
  have hne := fun x hx => ne_of_beginsNumber (x := x) hb hx
  simp [isBlank, hne 0x20 rfl, hne 0x09 rfl, hne 0x0a rfl, hne 0x0d rfl]

/-- A number token at the beginning is found where no number byte stands behind it. -/
lemma takeWhile_of_isNumber {token rest : List UInt8} (h : IsNumber token)
    (hrest : ∀ b ∈ rest.head?, isNumberByte b = false) :
    (token ++ rest).takeWhile isNumberByte = token := by
  rw [List.takeWhile_append_of_pos (isNumberByte_of_isNumber h)]
  cases rest with
  | nil => simp
  | cons b rest => rw [List.takeWhile_cons_of_neg (by simp [hrest b (by simp)]), List.append_nil]

end EntityDump.Lexeme
