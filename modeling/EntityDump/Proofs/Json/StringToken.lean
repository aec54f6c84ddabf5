import EntityDump.Proofs.Json.Grammar
/-!
# String tokens of the grammar

A string token that is decoded has the form of the grammar (`isChars_of_decode`). Decoding copies bytes and
resolves escapes to characters, and in the end checks that the result is UTF-8. An escape stands for whole
characters, so that the bytes of a character of several bytes stand next to each other in the token: what
`Resolves` to characters is made of characters (`isChars_of_resolves`).
-/

namespace EntityDump.Json

open Grammar

/-! ### Characters in UTF-8 -/

/-- A byte inside a character of several bytes. -/
def IsContinuation (b : UInt8) : Prop :=
  0x80 ≤ b.toNat ∧ b.toNat < 0xc0

/-- An ASCII character is a single byte. -/
lemma utf8EncodeChar_of_lt {c : Char} (h : c.toNat < 0x80) :
    String.utf8EncodeChar c = [UInt8.ofNat c.toNat] := by
  unfold String.utf8EncodeChar
  exact if_pos (Nat.le_of_lt_succ h)

/-- Any other character is a byte above the continuations, and continuations behind it. -/
lemma utf8EncodeChar_of_le {c : Char} (h : 0x80 ≤ c.toNat) :
    ∃ b tail, String.utf8EncodeChar c = b :: tail ∧ 0xc0 ≤ b.toNat ∧
      ∀ x ∈ tail, IsContinuation x := by
  have h7f : ¬ c.val.toNat ≤ 0x7f := Nat.not_le.2 h
  unfold String.utf8EncodeChar
  dsimp only
  rw [if_neg h7f]
  split
  · refine ⟨_, _, rfl, ?_, ?_⟩
    · simp; omega
    · simp [IsContinuation]; omega
  split
  · refine ⟨_, _, rfl, ?_, ?_⟩
    · simp; omega
    · simp [IsContinuation]; omega
  · refine ⟨_, _, rfl, ?_, ?_⟩
    · simp; omega
    · simp [IsContinuation]; omega

/-- A character is encoded by a byte that is no continuation and continuations behind it. -/
lemma utf8EncodeChar_eq_cons (c : Char) :
    ∃ b tail, String.utf8EncodeChar c = b :: tail ∧ ¬ IsContinuation b ∧
      ∀ x ∈ tail, IsContinuation x := by
  rcases Nat.lt_or_ge c.toNat 0x80 with h | h
  · refine ⟨_, [], utf8EncodeChar_of_lt h, ?_, by simp⟩
    simp [IsContinuation]
    omega
  · obtain ⟨b, tail, he, hb, htail⟩ := utf8EncodeChar_of_le h
    exact ⟨b, tail, he, fun hc => by have := hc.2; omega, htail⟩

/-- No character is encoded by the beginning of another. -/
lemma utf8EncodeChar_append_inj {c c' : Char} {s s' : List UInt8}
    (h : String.utf8EncodeChar c ++ s = String.utf8EncodeChar c' ++ s') : c = c' ∧ s = s' := by
  have hc : c = c' := by
    have hd := @ByteArray.utf8DecodeChar?_utf8EncodeChar_append s.toByteArray c
    have hd' := @ByteArray.utf8DecodeChar?_utf8EncodeChar_append s'.toByteArray c'
    rw [← List.toByteArray_append, h, List.toByteArray_append, hd'] at hd
    exact (Option.some.inj hd).symm
  subst hc
  exact ⟨rfl, List.append_cancel_left h⟩

namespace StringToken

/-! ### What decoding resolves -/

/-- The bytes between the quotes of a token, and those that they stand for. -/
inductive Resolves : List UInt8 → List UInt8 → Prop
  | nil : Resolves [] []
  /-- A byte that stands for itself. -/
  | plain {b : UInt8} {s out : List UInt8} : 0x20 ≤ b → b ≠ quote → b ≠ backslash →
      Resolves s out → Resolves (b :: s) (b :: out)
  /-- An escape, or two for the halves of a surrogate pair, that stands for a character. -/
  | escaped (escape : List UInt8) (c : Char) {s out : List UInt8} :
      (∀ s, IsChars s → IsChars (escape ++ s)) → Resolves s out →
      Resolves (escape ++ s) (String.utf8EncodeChar c ++ out)

/-- A code point adds its bytes in UTF-8. -/
lemma toList_pushCodePoint (out : ByteArray) (n : Nat) :
    (pushCodePoint out n).data.toList = out.data.toList ++ String.utf8EncodeChar (Char.ofNat n) := by
  simp [pushCodePoint, List.utf8Encode_singleton]

lemma toList_push (out : ByteArray) (b : UInt8) :
    (out.push b).data.toList = out.data.toList ++ [b] := by
  simp [ByteArray.data_push]

/-- What has a value as a hexadecimal digit is one. -/
lemma isHexDigit_of_hexDigit? {b : UInt8} {n : Nat} (h : hexDigit? b = some n) : IsHexDigit b := by
  unfold hexDigit? at h
  unfold IsHexDigit IsDigit
  split at h
  · next hb => exact .inl (by simpa using hb)
  split at h
  · next hb => exact .inr (.inl (by simpa using hb))
  split at h
  · next hb => exact .inr (.inr (by simpa using hb))
  · cases h

/-- A hexadecimal escape with a value is one of the grammar. -/
lemma isChars_of_hexUnit? {a b c d : UInt8} {n : Nat} (h : hexUnit? a b c d = some n)
    {s : List UInt8} (hs : IsChars s) :
    IsChars (backslash :: hexLetter :: a :: b :: c :: d :: s) := by
  simp only [hexUnit?, Option.bind_eq_bind, Option.bind_eq_some_iff] at h
  obtain ⟨_, ha, _, hb, _, hc, _, hd, -⟩ := h
  exact .hex (isHexDigit_of_hexDigit? ha) (isHexDigit_of_hexDigit? hb) (isHexDigit_of_hexDigit? hc)
    (isHexDigit_of_hexDigit? hd) hs

/-- A letter that is resolved is one of the grammar, and stands for a character. -/
lemma simpleEscape?_eq_some {e b : UInt8} (h : simpleEscape? e = some b) :
    e ∈ escapeLetters ∧ ∃ c : Char, [b] = String.utf8EncodeChar c := by
  unfold simpleEscape? at h
  split at h
  · next he =>
    obtain rfl := Option.some.inj h
    simp only [Bool.or_eq_true, decide_eq_true_eq] at he
    rcases he with (rfl | rfl) | rfl
    · exact ⟨by decide, '"', by decide⟩
    · exact ⟨by decide, '\\', by decide⟩
    · exact ⟨by decide, '/', by decide⟩
  all_goals split_ifs at h with hb hf hn hr ht
  all_goals obtain rfl := Option.some.inj h
  · exact ⟨by subst hb; decide, '\x08', by decide⟩
  · exact ⟨by subst hf; decide, '\x0c', by decide⟩
  · exact ⟨by subst hn; decide, '\n', by decide⟩
  · exact ⟨by subst hr; decide, '\r', by decide⟩
  · exact ⟨by subst ht; decide, '\t', by decide⟩

/-- Decoding reaches a closing quote, and resolves the bytes before it. -/
lemma resolves_of_decodeBody {valid : Nat} {s : List UInt8} {seen : Nat} {out bytes : ByteArray}
    {last : Nat} (h : decodeBody valid s seen out = .ok (bytes, last)) :
    ∃ body text rest, s = body ++ quote :: rest ∧ Resolves body text ∧
      bytes.data.toList = out.data.toList ++ text := by
  fun_induction decodeBody valid s seen out
  -- The cases that are left give bytes: the closing quote, a byte, an escape, a unit, a surrogate pair.
  all_goals try (simp at h; done)
  case case2 rest _ out =>
    obtain ⟨rfl, -⟩ := Prod.mk.inj (Except.ok.inj h)
    exact ⟨[], [], rest, rfl, .nil, by simp⟩
  case case5 b _ _ out hquote hcontrol _ hescape ih =>
    obtain ⟨body, text, rest, rfl, hbody, hbytes⟩ := ih h
    refine ⟨b :: body, b :: text, rest, rfl, .plain (UInt8.not_lt.1 hcontrol) hquote hescape hbody, ?_⟩
    rw [hbytes, toList_push, List.append_assoc, List.singleton_append]
  case case7 _ out _ _ _ hescape e _ _ b hb ih =>
    obtain ⟨body, text, rest, rfl, hbody, hbytes⟩ := ih h
    obtain rfl := not_not.1 hescape
    obtain ⟨he, c, hc⟩ := simpleEscape?_eq_some hb
    refine ⟨_, _, rest, rfl, .escaped [backslash, e] c (fun s hs => .escape he hs) hbody, ?_⟩
    rw [hbytes, toList_push, ← hc, List.append_assoc]
  case case11 _ out _ _ _ hescape e hhex a b c d _ unit hunit _ _ ih =>
    obtain ⟨body, text, rest, rfl, hbody, hbytes⟩ := ih h
    obtain rfl := not_not.1 hescape
    obtain rfl := not_not.1 hhex
    refine ⟨_, _, rest, rfl, .escaped [backslash, hexLetter, a, b, c, d] (Char.ofNat unit)
      (fun s hs => isChars_of_hexUnit? hunit hs) hbody, ?_⟩
    rw [hbytes, toList_pushCodePoint, List.append_assoc]
  case case18 _ out _ _ _ hescape e hhex a b c d unit hunit _ _ x y hescape' hhex' a' b' c' d' _ trail
      htrail _ ih =>
    obtain ⟨body, text, rest, rfl, hbody, hbytes⟩ := ih h
    obtain rfl := not_not.1 hescape
    obtain rfl := not_not.1 hhex
    obtain rfl := not_not.1 hescape'
    obtain rfl := not_not.1 hhex'
    refine ⟨_, _, rest, rfl, .escaped [backslash, hexLetter, a, b, c, d,
      backslash, hexLetter, a', b', c', d'] (Char.ofNat (pairValue unit trail))
      (fun s hs => isChars_of_hexUnit? hunit (isChars_of_hexUnit? htrail hs)) hbody, ?_⟩
    rw [hbytes, toList_pushCodePoint, List.append_assoc]

/-! ### Back to the grammar -/

/-- Continuations come from bytes that stand for themselves. -/
lemma resolves_append_cases {body tail out : List UInt8} (h : Resolves body (tail ++ out))
    (htail : ∀ x ∈ tail, IsContinuation x) : ∃ s, body = tail ++ s ∧ Resolves s out := by
  induction tail generalizing body with
  | nil => exact ⟨body, rfl, h⟩
  | cons x tail ih =>
    obtain ⟨hx, htail⟩ := List.forall_mem_cons.1 htail
    rw [List.cons_append] at h
    generalize hout : x :: (tail ++ out) = text at h
    cases h with
    | nil => cases hout
    | plain _ _ _ hs =>
      obtain ⟨rfl, rfl⟩ := List.cons.inj hout
      obtain ⟨s, rfl, hbehind⟩ := ih hs htail
      exact ⟨s, rfl, hbehind⟩
    | escaped _ c _ hs =>
      obtain ⟨b, tail', he, hb, -⟩ := utf8EncodeChar_eq_cons c
      rw [he, List.cons_append] at hout
      obtain ⟨rfl, -⟩ := List.cons.inj hout
      exact absurd hx hb

/-- A byte that stands for itself begins a character of a string. -/
lemma unescaped_of_plain {c : Char} {b : UInt8} {tail : List UInt8}
    (he : String.utf8EncodeChar c = b :: tail) (hcontrol : 0x20 ≤ b) (hquote : b ≠ quote)
    (hescape : b ≠ backslash) : 0x20 ≤ c.toNat ∧ c ≠ '"' ∧ c ≠ '\\' := by
  refine ⟨?_, ?_, ?_⟩
  · rcases Nat.lt_or_ge c.toNat 0x80 with h | h
    · rw [utf8EncodeChar_of_lt h] at he
      obtain ⟨rfl, -⟩ := List.cons.inj he
      have hle := UInt8.le_iff_toNat_le.1 hcontrol
      simp at hle
      omega
    · omega
  · rintro rfl
    exact hquote (List.cons.inj he).1.symm
  · rintro rfl
    exact hescape (List.cons.inj he).1.symm

/-- Bytes that stand for characters are characters of the grammar. -/
lemma isChars_of_resolves {body out : List UInt8} (h : Resolves body out) (chars : List Char)
    (hout : out = chars.flatMap String.utf8EncodeChar) : IsChars body := by
  induction chars generalizing body out with
  | nil =>
    cases h with
    | nil => exact .nil
    | plain => simp at hout
    | escaped _ c =>
      obtain ⟨b, tail, he, -⟩ := utf8EncodeChar_eq_cons c
      simp [he] at hout
  | cons c chars ih =>
    rw [List.flatMap_cons] at hout
    cases h with
    | nil =>
      obtain ⟨b, tail, he, -⟩ := utf8EncodeChar_eq_cons c
      simp [he] at hout
    | @plain b _ _ hcontrol hquote hescape hs =>
      obtain ⟨b', tail, he, -, htail⟩ := utf8EncodeChar_eq_cons c
      rw [he, List.cons_append] at hout
      obtain ⟨rfl, rfl⟩ := List.cons.inj hout
      obtain ⟨s, rfl, hbehind⟩ := resolves_append_cases hs htail
      obtain ⟨hcontrol, hquote, hescape⟩ := unescaped_of_plain he hcontrol hquote hescape
      have hchars := IsChars.unescaped hcontrol hquote hescape (ih hbehind rfl)
      rwa [he] at hchars
    | escaped _ c' hchars hs =>
      obtain ⟨-, rfl⟩ := utf8EncodeChar_append_inj hout
      exact hchars _ (ih hs rfl)

/-- The text of bytes is made of characters. -/
lemma exists_chars_of_fromUTF8? {bytes : ByteArray} {text : String}
    (h : String.fromUTF8? bytes = some text) :
    ∃ chars : List Char, bytes.data.toList = chars.flatMap String.utf8EncodeChar := by
  unfold String.fromUTF8? at h
  split at h
  · next hvalid =>
    obtain ⟨m, hm⟩ := hvalid
    refine ⟨m, ?_⟩
    rw [hm]
    simp [List.utf8Encode]
  · cases h

/-- A token that is decoded has the form of the grammar up to its closing quote. -/
lemma isChars_of_decode {token : List UInt8} {text : String} (h : decode token = .ok text) :
    ∃ chars rest, token.drop 1 = chars ++ quote :: rest ∧ IsChars chars := by
  unfold decode at h
  cases hbody : decodeBody (Text.validLength token) (token.drop 1) 1 ByteArray.empty with
  | error e => rw [hbody] at h; cases h
  | ok p =>
    obtain ⟨bytes, last⟩ := p
    rw [hbody] at h
    obtain ⟨body, out, rest, hdrop, hres, hbytes⟩ := resolves_of_decodeBody hbody
    cases htext : String.fromUTF8? bytes with
    | none => simp [bind, Except.bind, htext] at h
    | some text' =>
      obtain ⟨chars, hchars⟩ := exists_chars_of_fromUTF8? htext
      refine ⟨body, rest, hdrop, isChars_of_resolves hres chars ?_⟩
      rw [← hchars, hbytes]
      rfl
end StringToken

end EntityDump.Json
