import EntityDump.Numeric.Literal
import EntityDump.Text.Blank
import Mathlib.Data.List.Induction
import Mathlib.Data.Nat.Digits.Defs
/-!
# Digits of natural numbers

A natural number is read back from its digits (`readNat?_toDigits`), and no other digits of the number are
fewer (`length_toDigits_digitsValue_le`).
-/

namespace EntityDump.Numeric

open Text

variable {c : Char} {digits : List Char}

/-- Digits are not blank. -/
lemma isBlank_of_isAsciiDigit (h : isAsciiDigit c = true) : isBlank c = false := by
  have hrange : 48 ≤ c.toNat ∧ c.toNat ≤ 57 := by
    rw [isAsciiDigit, Bool.and_eq_true, decide_eq_true_eq, decide_eq_true_eq] at h
    exact h
  simp only [isBlank, Bool.or_eq_false_iff, Bool.and_eq_false_iff, decide_eq_false_iff_not,
    beq_eq_false_iff_ne]
  omega

/-- A digit is worth less than ten. -/
lemma digitValue_lt (h : isAsciiDigit c = true) : digitValue c < 10 := by
  rw [isAsciiDigit, Bool.and_eq_true, decide_eq_true_eq, decide_eq_true_eq] at h
  have hnine : c.toNat ≤ 57 := h.2
  rw [digitValue]
  omega

/-! ### Written numbers -/

section Written

variable (n : Nat)

/-- A number is written in digits. -/
lemma isAsciiDigit_of_mem_toDigits : ∀ c ∈ Nat.toDigits 10 n, isAsciiDigit c = true :=
  fun _ h => Nat.isDigit_of_mem_toDigits (by decide) (by decide) h

/-- The digits of a number are worth the number. -/
lemma digitsValue_toDigits : digitsValue (Nat.toDigits 10 n) = n := by
  conv_rhs => rw [← Nat.ofDigitChars_ten_toDigits (n := n), Nat.ofDigitChars_eq_foldl]
  simp only [digitsValue, digitValue, Nat.mul_comm 10]
  rfl

/-- The digits of a number are a run of digits, as one at least is written. -/
lemma isDigitRun_toDigits : isDigitRun (Nat.toDigits 10 n) = true := by
  simpa [isDigitRun, Nat.toDigits_ne_nil] using isAsciiDigit_of_mem_toDigits n

/-- The digits of a number are read as the number. -/
lemma readNat?_toDigits : readNat? (Nat.toDigits 10 n) = some n := by
  unfold readNat?
  split
  · next hplus =>
    have hdigit : isAsciiDigit '+' = true := isAsciiDigit_of_mem_toDigits n '+' (by simp [hplus])
    cases hdigit
  · dsimp only
    rw [isDigitRun_toDigits, if_pos rfl, digitsValue_toDigits]

end Written

/-! ### Read numbers -/

/-- A run of digits is not empty and holds digits alone. -/
lemma isDigitRun_iff : isDigitRun digits = true ↔ digits ≠ [] ∧ ∀ c ∈ digits, isAsciiDigit c = true := by
  simp [isDigitRun]

/-- A natural number is read from digits behind an optional plus sign. -/
lemma readNat?_eq_some_iff {s : List Char} {n : Nat} :
    readNat? s = some n ↔ ∃ sign digits, (sign = [] ∨ sign = ['+']) ∧ isDigitRun digits = true ∧
      s = sign ++ digits ∧ digitsValue digits = n := by
  constructor
  · intro h
    unfold readNat? at h
    split at h
    · next digits =>
      obtain ⟨hdigits, hn⟩ : isDigitRun digits = true ∧ digitsValue digits = n := by simpa using h
      exact ⟨['+'], digits, .inr rfl, hdigits, rfl, hn⟩
    · obtain ⟨hdigits, hn⟩ : isDigitRun s = true ∧ digitsValue s = n := by simpa using h
      exact ⟨[], s, .inl rfl, hdigits, rfl, hn⟩
  · rintro ⟨sign, digits, rfl | rfl, hdigits, rfl, rfl⟩
    · unfold readNat?
      split
      · have hplus : isAsciiDigit '+' = true := (isDigitRun_iff.1 hdigits).2 '+' List.mem_cons_self
        cases hplus
      · simp [hdigits]
    · simp [readNat?, hdigits]

/-- Digits are worth less than the power of ten of their number. -/
lemma digitsValue_lt (h : ∀ c ∈ digits, isAsciiDigit c = true) :
    digitsValue digits < 10 ^ digits.length := by
  induction digits using List.reverseRecOn with
  | nil => exact Nat.one_pos
  | append_singleton digits c ih =>
    obtain ⟨hdigits, hc⟩ := List.forall_mem_append.1 h
    have hlt := ih hdigits
    have hc := digitValue_lt (hc c (List.mem_singleton_self c))
    have hvalue : digitsValue (digits ++ [c]) = digitsValue digits * 10 + digitValue c := by
      simp [digitsValue]
    rw [hvalue, List.length_append, List.length_singleton, pow_succ]
    omega

/-- A number is written with no more digits than it was read from. -/
lemma length_toDigits_digitsValue_le (h : isDigitRun digits = true) :
    (Nat.toDigits 10 (digitsValue digits)).length ≤ digits.length := by
  obtain ⟨hne, hdigits⟩ := isDigitRun_iff.1 h
  exact Nat.toDigits_length 10 _ _ (List.length_pos_iff.2 hne) (digitsValue_lt hdigits)

end EntityDump.Numeric
