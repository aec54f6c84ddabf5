import EntityDump.Proofs.Numeric.Rounding
import Mathlib
/-!
# The parts of a double

The arithmetic of doubles shifts a mantissa to 53 bits and rounds what is shifted out. The result is the
rounded quotient by a power of two (`exists_round_eq`). Packed into 64 bits and taken out again, the parts of
a normal double are the same (`unpack_pack_of_normal`).
-/

namespace EntityDump.Numeric

open Float.Model (UnpackedFloat Format totalExponent)
open Float.Model.UnpackedFloat (Sign ExtendedMantissa roundWithAccuracy shiftToTargetExponent shiftToExponent
  pack unpack packComponents unpackSign unpackMantissa_packComponents unpackExponent_packComponents)

/-! ### Shifting -/

lemma shiftRight_zero (x : ExtendedMantissa) : x >>> (0 : Nat) = x := rfl

lemma shiftRight_succ (x : ExtendedMantissa) (k : Nat) : x >>> (k + 1) = (x >>> k).shiftRightOne := rfl

/-- What is left of a mantissa when bits are shifted out: the quotient, whether the remainder is a half or
more, and whether it is anything besides a half. -/
lemma shiftRight_eq (m k : Nat) :
    ExtendedMantissa.ofMantissaAndAccuracy m .exact >>> k =
      ⟨m / 2 ^ k, decide (2 ^ k ≤ 2 * (m % 2 ^ k)), decide (2 * (m % 2 ^ k) % 2 ^ k ≠ 0)⟩ := by
  induction k with
  | zero => simp [shiftRight_zero, ExtendedMantissa.ofMantissaAndAccuracy, Nat.mod_one]
  | succ k ih =>
    have hpow : 2 ^ (k + 1) = 2 * 2 ^ k := Nat.pow_succ'
    have hpos : 0 < 2 ^ k := Nat.two_pow_pos k
    have hlt : m % 2 ^ k < 2 ^ k := Nat.mod_lt _ hpos
    have hmod : m % 2 ^ (k + 1) = m % 2 ^ k + 2 ^ k * (m / 2 ^ k % 2) := Nat.mod_pow_succ
    have hbit : m / 2 ^ k % 2 = 0 ∨ m / 2 ^ k % 2 = 1 := Nat.mod_two_eq_zero_or_one _
    have hdiv : m / 2 ^ (k + 1) = m / 2 ^ k / 2 := by rw [Nat.pow_succ, Nat.div_div_eq_div_mul]
    rw [shiftRight_succ, ih, ExtendedMantissa.shiftRightOne, hdiv, hmod, hpow]
    generalize m % 2 ^ k = r at *
    generalize m / 2 ^ k = q at *
    generalize 2 ^ k = p at *
    -- The last bit of the quotient is the new half, and the old remainder is what is besides.
    have hhalf : 2 * p ≤ 2 * (r + p * (q % 2)) ↔ q % 2 ≠ 0 := by
      rcases hbit with h | h <;> rw [h] <;> omega
    have hbesides : 2 * (r + p * (q % 2)) % (2 * p) ≠ 0 ↔ r ≠ 0 := by
      have hsum : 2 * (r + p * (q % 2)) = 2 * r + 2 * p * (q % 2) := by ring
      rw [hsum, Nat.add_mul_mod_self_left, Nat.mod_eq_of_lt (by omega)]
      omega
    have hrest : (p ≤ 2 * r ∨ 2 * r % p ≠ 0) ↔ r ≠ 0 := by
      rcases Nat.lt_or_ge (2 * r) p with h | h
      · rw [Nat.mod_eq_of_lt h]
        omega
      · omega
    congr 1
    · rw [Bool.eq_iff_iff]
      simp [hhalf]
    · rw [Bool.eq_iff_iff]
      simp only [Bool.or_eq_true, decide_eq_true_eq, hrest, hbesides]

/-- A shifted mantissa is rounded to the quotient by the power of two. -/
lemma roundedMantissa_shiftRight (m k : Nat) :
    (ExtendedMantissa.ofMantissaAndAccuracy m .exact >>> k).roundedMantissa = divRoundEven m (2 ^ k) := by
  have hlt : m % 2 ^ k < 2 ^ k := Nat.mod_lt _ (Nat.two_pow_pos k)
  rw [shiftRight_eq, ExtendedMantissa.roundedMantissa, divRoundEven]
  generalize m % 2 ^ k = r at *
  generalize m / 2 ^ k = q at *
  generalize 2 ^ k = p at *
  rcases Nat.lt_trichotomy (2 * r) p with h | h | h
  · have hhalf : decide (p ≤ 2 * r) = false := decide_eq_false h.not_ge
    rw [hhalf, if_neg (by simp; omega)]
    cases decide (2 * r % p ≠ 0) <;> rfl
  · have hhalf : decide (p ≤ 2 * r) = true := decide_eq_true h.ge
    have hbesides : decide (2 * r % p ≠ 0) = false := by simp [h]
    rw [hhalf, hbesides]
    change q + q % 2 = _
    rcases Nat.mod_two_eq_zero_or_one q with hq | hq <;> simp [h, hq]
  · have hhalf : decide (p ≤ 2 * r) = true := decide_eq_true h.le
    have hbesides : decide (2 * r % p ≠ 0) = true := by
      refine decide_eq_true ?_
      rw [Nat.mod_eq_sub_mod h.le, Nat.mod_eq_of_lt (by omega)]
      omega
    rw [hhalf, hbesides, if_pos (by simp; omega)]
    rfl

/-! ### Rounding -/

/-- A mantissa is shifted until it has 53 bits. -/
lemma shiftToTargetExponent_eq {m k : Nat} {e : Int} (hlog : m.log2 = 52 + k) (he : -1074 ≤ e + k) :
    shiftToTargetExponent .binary64 m e .exact =
      (ExtendedMantissa.ofMantissaAndAccuracy m .exact >>> k, e + k) := by
  have htarget : Format.binary64.targetExponent (totalExponent m e) = e + k := by
    simp only [Format.targetExponent, totalExponent, hlog, Format.mantissaBits, Format.minExponent]
    omega
  have hshift : (e + k - e).toNat = k := by omega
  simp only [shiftToTargetExponent, htarget, shiftToExponent, hshift]

/-- Rounding a mantissa of `53 + k` bits leaves 53 bits of the rounded quotient by `2 ^ k`. If the quotient is
rounded up to 54 bits, the exponent is one more. -/
theorem exists_round_eq (sign : Sign) {m k : Nat} {e : Int} (hm : 0 < m) (hlog : m.log2 = 52 + k)
    (he : -1074 ≤ e + k) :
    ∃ m' e', ∃ hpos : 0 < m', roundWithAccuracy .binary64 sign m e .exact = .finite sign m' e' hpos ∧
      2 ^ 52 ≤ m' ∧ m' < 2 ^ 53 ∧ e + k ≤ e' ∧
      m' * 2 ^ (e' - e).toNat = divRoundEven m (2 ^ k) * 2 ^ k := by
  obtain ⟨hlo, hhi⟩ := divRoundEven_two_pow_bounds hm hlog
  rw [roundWithAccuracy, shiftToTargetExponent_eq hlog he]
  dsimp only
  rw [roundedMantissa_shiftRight]
  generalize divRoundEven m (2 ^ k) = r at *
  rcases hhi.lt_or_eq with hlt | rfl
  · have hlog' : r.log2 = 52 + 0 := (Nat.log2_eq_iff (by omega)).2 ⟨hlo, hlt⟩
    have hne : r ≠ 0 := by omega
    have hshift : (e + k - e).toNat = k := by omega
    refine ⟨r, e + k, Nat.pos_of_ne_zero hne, ?_, hlo, hlt, le_rfl, by rw [hshift]⟩
    rw [shiftToTargetExponent_eq hlog' (by omega)]
    simp [shiftRight_zero, ExtendedMantissa.ofMantissaAndAccuracy, hne]
  · have hlog' : (2 ^ 53 : Nat).log2 = 52 + 1 := Nat.log2_two_pow
    have hshift : (e + k + 1 - e).toNat = k + 1 := by omega
    refine ⟨2 ^ 52, e + k + 1, by decide, ?_, le_rfl, by decide, by omega, ?_⟩
    · rw [shiftToTargetExponent_eq hlog' (by omega)]
      rfl
    · rw [hshift]
      ring

/-! ### Packing -/

/-- A sign is read back from its bit. -/
lemma ofBitVec_toBitVec (sign : Sign) : Sign.ofBitVec sign.toBitVec = sign := by
  cases sign <;> rfl

/-- The sign is unpacked as it was packed. -/
lemma unpackSign_packComponents (sign : Sign) (exponent : BitVec 11) (mantissa : BitVec 52) :
    unpackSign (packComponents Format.binary64 sign exponent mantissa) = sign.toBitVec := by
  change (sign.toBitVec ++ exponent ++ mantissa).extractLsb' 63 1 = sign.toBitVec
  rw [BitVec.extractLsb'_append_eq_of_le (by decide), BitVec.extractLsb'_append_eq_of_le (by decide)]
  cases sign <;> rfl

/-- The highest bit of 53 is not stored. It is put back before the other ones. -/
lemma toNat_one_append {m : Nat} (hlo : 2 ^ 52 ≤ m) (hhi : m < 2 ^ 53) :
    (1#1 ++ BitVec.ofNat 52 m).toNat = m := by
  have hfraction : m % 2 ^ 52 < 2 ^ 52 := Nat.mod_lt _ (Nat.two_pow_pos 52)
  calc (1#1 ++ BitVec.ofNat 52 m).toNat = 1 <<< 52 ||| m % 2 ^ 52 := BitVec.toNat_append ..
    _ = 1 <<< 52 + m % 2 ^ 52 := (Nat.shiftLeft_add_eq_or_of_lt hfraction 1).symm
    _ = m := by omega

/-- Exponents of eleven bits that differ differ as bits. -/
lemma ofNat_ne_ofNat {b c : Nat} (hb : b < 2 ^ 11) (hc : c < 2 ^ 11) (hne : b ≠ c) :
    BitVec.ofNat 11 b ≠ BitVec.ofNat 11 c := by
  intro h
  have htoNat := congrArg BitVec.toNat h
  rw [BitVec.toNat_ofNat, BitVec.toNat_ofNat, Nat.mod_eq_of_lt hb, Nat.mod_eq_of_lt hc] at htoNat
  exact hne htoNat

/-- The parts of a normal double are the same after packing. -/
theorem unpack_pack_of_normal (sign : Sign) {m : Nat} {e : Int} (hpos : 0 < m) (hlo : 2 ^ 52 ≤ m)
    (hhi : m < 2 ^ 53) (he : -1074 ≤ e) (he' : e ≤ 971) :
    unpack .binary64 (pack .binary64 (.finite sign m e hpos)) = .finite sign m e hpos := by
  have hlog : m.log2 + 1 = Format.binary64.mantissaBits := by
    rw [(Nat.log2_eq_iff hpos.ne').2 ⟨hlo, hhi⟩]
    rfl
  obtain ⟨b, hb⟩ : ∃ b : Nat, (e + Format.binary64.exponentBias +
      Format.binary64.mantissaBitsWithoutImplicit).toNat = b := ⟨_, rfl⟩
  have hbias : e + 1023 + 52 = b := by
    have htoNat : (e + 1023 + 52).toNat = b := hb
    omega
  have hpack : pack .binary64 (.finite sign m e hpos) =
      packComponents .binary64 sign (BitVec.ofNat 11 b) (BitVec.ofNat 52 m) := by
    have hfits : ¬ 2 ^ Format.binary64.exponentBits ≤ b + 1 := by
      change ¬ 2 ^ 11 ≤ b + 1
      omega
    simp only [pack, hb, if_neg hfits, if_pos hlog]
  have hexponent : (BitVec.ofNat 11 b).toNat = b := by
    rw [BitVec.toNat_ofNat]
    omega
  -- Neither the exponent of infinity nor that of subnormal numbers is reached.
  have hinfinite : BitVec.ofNat 11 b ≠ -1#11 := ofNat_ne_ofNat (c := 2047) (by omega) (by decide) (by omega)
  have hsubnormal : BitVec.ofNat 11 b ≠ 0#11 := ofNat_ne_ofNat (c := 0) (by omega) (by decide) (by omega)
  have hunbias : (b : Int) -
      (Format.binary64.exponentBias + Format.binary64.mantissaBitsWithoutImplicit) = e := by
    change (b : Int) - (1023 + 52) = e
    omega
  rw [hpack]
  simp only [unpack, unpackMantissa_packComponents, unpackExponent_packComponents,
    unpackSign_packComponents, if_neg hinfinite, if_neg hsubnormal, toNat_one_append hlo hhi, hexponent]
  congr 1
  exact ofBitVec_toBitVec sign

end EntityDump.Numeric
