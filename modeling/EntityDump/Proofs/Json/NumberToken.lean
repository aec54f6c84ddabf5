import EntityDump.Proofs.Json.Grammar
/-!
# Number tokens of the grammar

A token that is decoded as a number is a number of the grammar: `isNumberOf_of_decode?`.
-/

namespace EntityDump.Json

open Grammar

namespace NumberToken

open Text Numeric

/-! ### Digits -/

/-- ASCII characters as bytes. -/
def asciiBytes (s : List Char) : List UInt8 :=
  s.map fun c => UInt8.ofNat c.toNat

/-- Bytes that are read as characters are what they were. -/
lemma asciiBytes_map (token : List UInt8) :
    asciiBytes (token.map fun b => Char.ofNat b.toNat) = token := by
  have hbyte : ∀ b : UInt8, UInt8.ofNat (Char.ofNat b.toNat).toNat = b := by
    intro b
    have hlt := b.toNat_lt
    have hvalid : b.toNat.isValidChar := .inl (by omega)
    have hchar : Char.ofNat b.toNat = Char.ofNatAux b.toNat hvalid := dif_pos hvalid
    have htoNat : (Char.ofNatAux b.toNat hvalid).toNat = b.toNat := rfl
    rw [hchar, htoNat, UInt8.ofNat_toNat]
  simp [asciiBytes, Function.comp_def, hbyte]

lemma asciiBytes_append (s s' : List Char) : asciiBytes (s ++ s') = asciiBytes s ++ asciiBytes s' :=
  List.map_append

/-- The digits stand in a row. -/
lemma toNat_of_isAsciiDigit {c : Char} (h : isAsciiDigit c = true) : 48 ≤ c.toNat ∧ c.toNat ≤ 57 := by
  simp only [isAsciiDigit, Bool.and_eq_true, decide_eq_true_eq, Char.le_def,
    UInt32.le_iff_toNat_le] at h
  exact h

/-- A digit among the characters is a digit of the grammar. -/
lemma isDigit_of_isAsciiDigit {c : Char} (h : isAsciiDigit c = true) :
    IsDigit (UInt8.ofNat c.toNat) := by
  obtain ⟨hlow, hhigh⟩ := toNat_of_isAsciiDigit h
  simp only [IsDigit, UInt8.le_iff_toNat_le, UInt8.toNat_ofNat']
  simp
  omega

/-- The digit zero is the character of that byte. -/
lemma eq_zero_of_isAsciiDigit {c : Char} (h : isAsciiDigit c = true)
    (hzero : UInt8.ofNat c.toNat = 0x30) : c = '0' := by
  obtain ⟨hlow, hhigh⟩ := toNat_of_isAsciiDigit h
  have hmod := congrArg UInt8.toNat hzero
  simp at hmod
  exact Char.toNat_inj.1 (by simp; omega)

/-- A run of digit characters is a run of digits of the grammar. -/
lemma isDigits_asciiBytes {s : List Char} (hne : s ≠ []) (h : ∀ c ∈ s, isAsciiDigit c = true) :
    IsDigits (asciiBytes s) := by
  refine ⟨by simpa [asciiBytes] using hne, fun b hb => ?_⟩
  obtain ⟨c, hc, rfl⟩ := List.mem_map.1 hb
  exact isDigit_of_isAsciiDigit (h c hc)

/-! ### The parts of a number -/

/-- What is read as an exponent, or as none, is one of the grammar. -/
lemma isExponent_of_readExponent? {s : List Char} {e : Option (Bool × List Char)}
    (h : readExponent? s = some e) : IsExponent (asciiBytes s) := by
  have hrun : ∀ {digits : List Char} {e' : Bool × List Char},
      (if isDigitRun digits then some (some e') else none) = some e → IsDigits (asciiBytes digits) := by
    intro digits e' h
    split at h
    · next hdigits =>
      simp only [isDigitRun, Bool.and_eq_true, Bool.not_eq_true', List.isEmpty_eq_false_iff,
        List.all_eq_true] at hdigits
      exact isDigits_asciiBytes hdigits.1 hdigits.2
    · cases h
  unfold readExponent? at h
  dsimp only at h
  split at h
  · exact .absent
  · split at h
    · exact @IsExponent.present _ [0x2d] _ (.inl rfl) (.inr (.inl rfl)) (hrun h)
    · exact @IsExponent.present _ [0x2b] _ (.inl rfl) (.inr (.inr rfl)) (hrun h)
    · exact @IsExponent.present _ [] _ (.inl rfl) (.inl rfl) (hrun h)
  · split at h
    · exact @IsExponent.present _ [0x2d] _ (.inr rfl) (.inr (.inl rfl)) (hrun h)
    · exact @IsExponent.present _ [0x2b] _ (.inr rfl) (.inr (.inr rfl)) (hrun h)
    · exact @IsExponent.present _ [] _ (.inr rfl) (.inl rfl) (hrun h)
  · cases h

/-- Characters up to the first one that is no digit are digits of the grammar. -/
lemma isDigits_takeWhile {s : List Char} (h : (s.takeWhile isAsciiDigit).isEmpty = false) :
    IsDigits (asciiBytes (s.takeWhile isAsciiDigit)) := by
  refine isDigits_asciiBytes (List.isEmpty_eq_false_iff.1 h) fun c hc => ?_
  exact List.all_eq_true.1 (List.all_takeWhile (p := isAsciiDigit)) c hc

/-- Whole digits that are accepted have no leading zero. -/
lemma isInt_takeWhile {s : List Char}
    (h : ((s.takeWhile isAsciiDigit).isEmpty ||
      ((s.takeWhile isAsciiDigit).head? == some '0' &&
        decide ((s.takeWhile isAsciiDigit).length > 1))) = false) :
    IsInt (asciiBytes (s.takeWhile isAsciiDigit)) := by
  obtain ⟨hne, hzero⟩ := Bool.or_eq_false_iff.1 h
  refine ⟨isDigits_takeWhile hne, fun hhead => ?_⟩
  have hall := List.all_takeWhile (l := s) (p := isAsciiDigit)
  generalize s.takeWhile isAsciiDigit = whole at hne hzero hhead hall
  obtain ⟨c, rest, rfl⟩ := List.exists_cons_of_ne_nil (List.isEmpty_eq_false_iff.1 hne)
  have hc : c = '0' := by
    refine eq_zero_of_isAsciiDigit (List.all_eq_true.1 hall c (by simp)) ?_
    simpa [asciiBytes] using hhead
  have hrest : rest.length = 0 := by simpa [hc] using hzero
  simp [asciiBytes, hrest]

/-- What is read behind a sign is a number of the grammar with that sign. -/
lemma isNumber_of_readUnsigned? {negative : Bool} {s : List Char} {token : NumberToken}
    (h : readUnsigned? negative s = some token) {minus : List UInt8}
    (hminus : minus = [] ∨ minus = [0x2d]) : IsNumber (minus ++ asciiBytes s) := by
  have hwhole := (List.takeWhile_append_dropWhile (p := isAsciiDigit) (l := s)).symm
  rw [hwhole, asciiBytes_append]
  unfold readUnsigned? at h
  dsimp only at h
  split at h
  · cases h
  next hint =>
  have hint := isInt_takeWhile (Bool.eq_false_iff.2 hint)
  split at h
  · next rest hpoint =>
    split at h
    · cases h
    next hfraction =>
    obtain ⟨e, he, -⟩ := Option.map_eq_some_iff.1 h
    have hfraction := isDigits_takeWhile (Bool.eq_false_iff.2 hfraction)
    have hrest := (List.takeWhile_append_dropWhile (p := isAsciiDigit) (l := rest)).symm
    have hpart : asciiBytes ('.' :: rest) = 0x2e :: asciiBytes (rest.takeWhile isAsciiDigit) ++
        asciiBytes (rest.dropWhile isAsciiDigit) := by
      rw [List.cons_append, ← asciiBytes_append, ← hrest]
      rfl
    rw [hpoint, hpart]
    exact .mk hminus hint (.present hfraction) (isExponent_of_readExponent? he)
  · obtain ⟨e, he, -⟩ := Option.map_eq_some_iff.1 h
    exact .mk hminus hint .absent (isExponent_of_readExponent? he)

/-- What is read as a number token is a number of the grammar. -/
lemma isNumber_of_read? {s : List Char} {token : NumberToken} (h : read? s = some token) :
    IsNumber (asciiBytes s) := by
  unfold read? at h
  split at h
  · exact isNumber_of_readUnsigned? h (.inr rfl)
  · exact isNumber_of_readUnsigned? h (.inl rfl)

end NumberToken

/-- A token that is decoded as a number is a number of the grammar. -/
lemma isNumberOf_of_decode? {token : List UInt8} {n : Number}
    (h : Number.decode? (token.map fun b => Char.ofNat b.toNat) = some n) : IsNumberOf token n := by
  refine ⟨?_, h⟩
  obtain ⟨parts, hread, -⟩ := Option.bind_eq_some_iff.1 h
  have hnumber := NumberToken.isNumber_of_read? hread
  rwa [NumberToken.asciiBytes_map] at hnumber

end EntityDump.Json
