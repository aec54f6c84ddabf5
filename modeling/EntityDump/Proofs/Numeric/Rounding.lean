import EntityDump.Numeric.Dyadic
import Mathlib.Data.Nat.Log
import Mathlib.Tactic.Ring
/-!
# Rounding to 53 bits

Whole numbers rounded to the bits that a double has, ties to the even neighbour (`nearest`). Numbers of at
most 53 bits stay as they are (`nearest_of_natAbs_le`), and rounding never turns two numbers around
(`nearest_mono`), but it may make them equal.
-/

namespace EntityDump.Numeric

/-! ### Rounded quotients -/

section Quotient

variable {m m' : Nat}

/-- A rounded quotient is the quotient or one more. -/
lemma divRoundEven_cases (m p : Nat) : divRoundEven m p = m / p ∨ divRoundEven m p = m / p + 1 := by
  unfold divRoundEven
  dsimp only
  split
  · exact .inr rfl
  · exact .inl rfl

lemma divRoundEven_one (n : Nat) : divRoundEven n 1 = n := by
  simp [divRoundEven, Nat.mod_one]

/-- A factor of both numbers does not count. -/
lemma divRoundEven_mul_right (m p : Nat) {k : Nat} (hk : 0 < k) :
    divRoundEven (m * k) (p * k) = divRoundEven m p := by
  have hmod : m * k % (p * k) = m % p * k := Nat.mul_mod_mul_right ..
  have hdiv : m * k / (p * k) = m / p := Nat.mul_div_mul_right _ _ hk
  have hlt : p * k < 2 * (m % p * k) ↔ p < 2 * (m % p) := by
    rw [← Nat.mul_assoc]
    exact Nat.mul_lt_mul_right hk
  have heq : 2 * (m % p * k) = p * k ↔ 2 * (m % p) = p := by
    rw [← Nat.mul_assoc]
    exact Nat.mul_left_inj hk.ne'
  unfold divRoundEven
  simp only [hmod, hdiv, gt_iff_lt, hlt, beq_eq_decide, heq]

/-- Rounded quotients keep the order. -/
lemma divRoundEven_mono (p : Nat) (h : m ≤ m') : divRoundEven m p ≤ divRoundEven m' p := by
  have hle : m / p ≤ m' / p := Nat.div_le_div_right h
  rcases hle.lt_or_eq with hlt | heq
  · rcases divRoundEven_cases m p with hm | hm <;> rcases divRoundEven_cases m' p with hm' | hm' <;> omega
  · -- Of equal quotients the remainders decide.
    have hmod : m % p ≤ m' % p := by
      have hm := Nat.mod_add_div m p
      have hm' := Nat.mod_add_div m' p
      rw [heq] at hm
      omega
    unfold divRoundEven
    simp only [heq]
    generalize m % p = r at *
    generalize m' % p = r' at *
    split
    · next hup =>
      split
      · rfl
      · next hdown =>
        simp only [Bool.or_eq_true, Bool.and_eq_true, decide_eq_true_eq, beq_iff_eq] at hup hdown
        omega
    · split <;> omega

/-- Of a number of `53 + k` bits the quotient by `2 ^ k` has 53 bits, or it is `2 ^ 53`. -/
lemma divRoundEven_two_pow_bounds {k : Nat} (hpos : 0 < m) (hlog : m.log2 = 52 + k) :
    2 ^ 52 ≤ divRoundEven m (2 ^ k) ∧ divRoundEven m (2 ^ k) ≤ 2 ^ 53 := by
  obtain ⟨hlo, hhi⟩ := (Nat.log2_eq_iff hpos.ne').1 hlog
  rw [Nat.pow_add] at hlo
  rw [Nat.add_right_comm, Nat.pow_add 2 (52 + 1) k] at hhi
  have hlo' : 2 ^ 52 ≤ m / 2 ^ k := (Nat.le_div_iff_mul_le (Nat.two_pow_pos k)).2 hlo
  have hhi' : m / 2 ^ k < 2 ^ (52 + 1) := (Nat.div_lt_iff_lt_mul (Nat.two_pow_pos k)).2 hhi
  rcases divRoundEven_cases m (2 ^ k) with h | h <;> omega

end Quotient

/-! ### Whole numbers rounded -/

/-- A number rounded to 53 bits from its first one on. -/
def nearestNat (n : Nat) : Nat :=
  divRoundEven n (2 ^ (n.log2 - 52)) * 2 ^ (n.log2 - 52)

/-- A whole number with its magnitude rounded to 53 bits. -/
def nearest : Int → Int
  | .ofNat n => nearestNat n
  | .negSucc n => -nearestNat (n + 1)

section Nearest

variable {n n' : Nat}

/-- A power of two adds its exponent to the logarithm. -/
lemma log2_mul_two_pow (hpos : 0 < n) (k : Nat) : (n * 2 ^ k).log2 = n.log2 + k := by
  have hne : n * 2 ^ k ≠ 0 := (Nat.mul_pos hpos (Nat.two_pow_pos k)).ne'
  obtain ⟨hlo, hhi⟩ := (Nat.log2_eq_iff hpos.ne').1 rfl
  refine (Nat.log2_eq_iff hne).2 ⟨?_, ?_⟩
  · rw [Nat.pow_add]
    exact Nat.mul_le_mul_right _ hlo
  · rw [Nat.add_right_comm, Nat.pow_add]
    exact Nat.mul_lt_mul_of_pos_right hhi (Nat.two_pow_pos k)

/-- A number of 53 bits is not rounded. -/
lemma nearestNat_of_lt (h : n < 2 ^ 53) : nearestNat n = n := by
  have hlog : n.log2 - 52 = 0 := by
    rcases Nat.eq_zero_or_pos n with rfl | hpos
    · rfl
    · have hlog := (Nat.log2_lt hpos.ne').2 h
      omega
  rw [nearestNat, hlog, Nat.pow_zero, divRoundEven_one, Nat.mul_one]

/-- A number is rounded within the powers of two around it. -/
lemma nearestNat_bounds (hpos : 0 < n) : 2 ^ n.log2 ≤ nearestNat n ∧ nearestNat n ≤ 2 ^ (n.log2 + 1) := by
  obtain ⟨hlo, hhi⟩ := (Nat.log2_eq_iff hpos.ne').1 rfl
  rcases Nat.lt_or_ge n.log2 53 with hlog | hlog
  · rw [nearestNat_of_lt ((Nat.log2_lt hpos.ne').1 hlog)]
    exact ⟨hlo, hhi.le⟩
  · obtain ⟨k, hk⟩ := Nat.exists_eq_add_of_le (Nat.le_of_succ_le hlog)
    have hunit : n.log2 - 52 = k := by omega
    obtain ⟨hlo', hhi'⟩ := divRoundEven_two_pow_bounds hpos hk
    rw [nearestNat, hunit, hk, Nat.pow_add, Nat.add_right_comm, Nat.pow_add 2 (52 + 1) k]
    exact ⟨Nat.mul_le_mul_right _ hlo', Nat.mul_le_mul_right _ hhi'⟩

/-- Rounding does not pass a power of two. -/
lemma nearestNat_le_two_pow {k : Nat} (h : n < 2 ^ k) : nearestNat n ≤ 2 ^ k := by
  rcases Nat.eq_zero_or_pos n with rfl | hpos
  · rw [nearestNat_of_lt (Nat.two_pow_pos 53)]
    exact Nat.zero_le _
  · have hlog := (Nat.log2_lt hpos.ne').2 h
    exact (nearestNat_bounds hpos).2.trans (Nat.pow_le_pow_right (by decide) hlog)

/-- Rounding keeps the order. -/
lemma nearestNat_mono (h : n ≤ n') : nearestNat n ≤ nearestNat n' := by
  rcases Nat.eq_zero_or_pos n with rfl | hpos
  · rw [nearestNat_of_lt (Nat.two_pow_pos 53)]
    exact Nat.zero_le _
  have hpos' : 0 < n' := hpos.trans_le h
  have hlog : n.log2 ≤ n'.log2 :=
    (Nat.le_log2 hpos'.ne').2 (((Nat.log2_eq_iff hpos.ne').1 rfl).1.trans h)
  rcases hlog.lt_or_eq with hlt | heq
  · calc nearestNat n ≤ 2 ^ (n.log2 + 1) := (nearestNat_bounds hpos).2
      _ ≤ 2 ^ n'.log2 := Nat.pow_le_pow_right (by decide) hlt
      _ ≤ nearestNat n' := (nearestNat_bounds hpos').1
  · rw [nearestNat, nearestNat, heq]
    exact Nat.mul_le_mul_right _ (divRoundEven_mono _ h)

/-- Rounding turns no two numbers around. -/
theorem nearest_mono {a b : Int} (h : a ≤ b) : nearest a ≤ nearest b := by
  cases a with
  | ofNat n =>
    cases b with
    | ofNat n' => exact Int.ofNat_le.2 (nearestNat_mono (Int.ofNat_le.1 h))
    | negSucc n' => exact absurd (h.trans_lt (Int.negSucc_lt_zero n')) (Int.natCast_nonneg n).not_gt
  | negSucc n =>
    cases b with
    | ofNat n' =>
      have hneg : -(nearestNat (n + 1) : Int) ≤ 0 := by omega
      exact hneg.trans (Int.natCast_nonneg _)
    | negSucc n' =>
      have hle : nearestNat (n' + 1) ≤ nearestNat (n + 1) := nearestNat_mono (by omega)
      have hneg : -(nearestNat (n + 1) : Int) ≤ -(nearestNat (n' + 1) : Int) := by omega
      exact hneg

/-- A number of at most 53 bits is not rounded, and `2 ^ 53` is not either. -/
theorem nearest_of_natAbs_le {a : Int} (h : a.natAbs ≤ 2 ^ 53) : nearest a = a := by
  have hnat : ∀ n ≤ 2 ^ 53, nearestNat n = n := by
    intro n hn
    rcases hn.lt_or_eq with hlt | rfl
    · exact nearestNat_of_lt hlt
    · decide
  cases a with
  | ofNat n => exact congrArg Int.ofNat (hnat n h)
  | negSucc n =>
    have hround : nearestNat (n + 1) = n + 1 := hnat _ h
    rw [nearest, hround]
    rfl

example : nearest (2 ^ 53 + 1) = 2 ^ 53 := by decide

end Nearest

end EntityDump.Numeric
