import EntityDump.Proofs.Numeric.DoubleOrder
import EntityDump.Proofs.Numeric.DoubleParts
/-!
# The double of a whole number

The double of a whole number of 64 bits is the number rounded to 53 bits, exactly (`isExact_ofInt`). So such
doubles are ordered as the rounded numbers are (`ofInt_lt_ofInt_iff`, `ofInt_beq_ofInt_iff`).
-/

namespace EntityDump.Numeric

open Float.Model (UnpackedFloat Format totalExponent)
open Float.Model.UnpackedFloat (Sign roundWithAccuracy decreaseExponent pack unpack)

/-! ### Whole numbers as parts of a double -/

/-- The mantissa `m` has 53 bits, and at the exponent `e` it is the whole number `n`. -/
structure IsScaled (n m : Nat) (e : Int) : Prop where
  lower : 2 ^ 52 ≤ m
  upper : m < 2 ^ 53
  exponent : -52 ≤ e
  value : m * 2 ^ (e + 52).toNat = n * 2 ^ 52

namespace IsScaled

variable {n n' m m' : Nat} {e e' : Int}

/-- A scaled mantissa has its leading bit, so it is positive. -/
lemma mantissa_pos (h : IsScaled n m e) : 0 < m :=
  (Nat.two_pow_pos 52).trans_le h.lower

/-- Only positive numbers are scaled. -/
lemma pos (h : IsScaled n m e) : 0 < n := by
  have hpos : 0 < m * 2 ^ (e + 52).toNat := Nat.mul_pos h.mantissa_pos (Nat.two_pow_pos _)
  rw [h.value] at hpos
  exact Nat.pos_of_mul_pos_right hpos

/-- Numbers of 64 bits need twelve powers of two at most beside the bits of a mantissa. -/
lemma exponent_le (h : IsScaled n m e) (hn : n ≤ 2 ^ 64) : e ≤ 12 := by
  have hle : 2 ^ (52 + (e + 52).toNat) ≤ 2 ^ (64 + 52) := by
    rw [Nat.pow_add, Nat.pow_add]
    calc 2 ^ 52 * 2 ^ (e + 52).toNat ≤ m * 2 ^ (e + 52).toNat := Nat.mul_le_mul_right _ h.lower
      _ = n * 2 ^ 52 := h.value
      _ ≤ 2 ^ 64 * 2 ^ 52 := Nat.mul_le_mul_right _ hn
  have hexp := (Nat.pow_le_pow_iff_right (by decide : 1 < 2)).1 hle
  omega

/-- A lesser number has no greater exponent. -/
lemma exponent_mono (h : IsScaled n m e) (h' : IsScaled n' m' e') (hle : n ≤ n') : e ≤ e' := by
  by_contra hlt
  have hexp : (e' + 52).toNat + 1 ≤ (e + 52).toNat := by
    have he := h'.exponent
    omega
  have hgt : n' * 2 ^ 52 < n * 2 ^ 52 :=
    calc n' * 2 ^ 52 = m' * 2 ^ (e' + 52).toNat := h'.value.symm
      _ < 2 ^ 53 * 2 ^ (e' + 52).toNat := Nat.mul_lt_mul_of_pos_right h'.upper (Nat.two_pow_pos _)
      _ = 2 ^ 52 * 2 ^ ((e' + 52).toNat + 1) := by ring
      _ ≤ m * 2 ^ (e + 52).toNat := Nat.mul_le_mul h.lower (Nat.pow_le_pow_right (by decide) hexp)
      _ = n * 2 ^ 52 := h.value
  omega

/-- Numbers are ordered by their exponents, and by their mantissas if the exponents are the same. -/
lemma lt_parts (h : IsScaled n m e) (h' : IsScaled n' m' e') (hlt : n < n') : e < e' ∨ e = e' ∧ m < m' := by
  rcases (h.exponent_mono h' hlt.le).lt_or_eq with hexp | rfl
  · exact .inl hexp
  · have hmantissa : m * 2 ^ (e + 52).toNat < m' * 2 ^ (e + 52).toNat := by
      rw [h.value, h'.value]
      exact Nat.mul_lt_mul_of_pos_right hlt (Nat.two_pow_pos 52)
    exact .inr ⟨rfl, Nat.lt_of_mul_lt_mul_right hmantissa⟩

/-- A number is scaled in one way only. -/
lemma parts_eq (h : IsScaled n m e) (h' : IsScaled n m' e') : e = e' ∧ m = m' := by
  obtain rfl : e = e' := le_antisymm (h.exponent_mono h' le_rfl) (h'.exponent_mono h le_rfl)
  exact ⟨rfl, Nat.eq_of_mul_eq_mul_right (Nat.two_pow_pos _) (h.value.trans h'.value.symm)⟩

end IsScaled

/-- The whole number of a sign and a magnitude. -/
def signed : Sign → Nat → Int
  | .positive, n => n
  | .negative, n => -n

/-- The parts of a double that is the whole number. -/
inductive IsExact : Int → UnpackedFloat → Prop where
  | zero (sign : Sign) : IsExact 0 (.zero sign)
  | finite (sign : Sign) {n m : Nat} {e : Int} (hpos : 0 < m) (h : IsScaled n m e) :
      IsExact (signed sign n) (.finite sign m e hpos)

namespace IsExact

variable {a b : Int} {u v : UnpackedFloat}

/-- What is exact is a number. -/
lemma ne_notANumber (h : IsExact a u) : u ≠ .notANumber := by
  cases h <;> simp

/-- What is exact is finite. -/
lemma ne_infinity (h : IsExact a u) (sign : Sign) : u ≠ .infinity sign := by
  cases h <;> simp

/-- Packing keeps the parts of a whole number. -/
lemma unpack_pack (h : IsExact a u) (ha : a.natAbs ≤ 2 ^ 64) : unpack .binary64 (pack .binary64 u) = u := by
  cases h with
  | zero sign => cases sign <;> rfl
  | @finite sign n m e hpos h =>
    have hn : n ≤ 2 ^ 64 := by cases sign <;> simpa [signed] using ha
    have hlo := h.exponent
    have hhi := h.exponent_le hn
    exact unpack_pack_of_normal sign hpos h.lower h.upper (by omega) (by omega)

/-- The negative of a float is exactly the negative of its number. -/
lemma neg (h : IsExact a u) : IsExact (-a) u.neg := by
  cases h with
  | zero sign => exact .zero _
  | @finite sign n m e hpos h =>
    have hsigned : -signed sign n = signed (-sign) n := by cases sign <;> simp [signed]
    rw [hsigned]
    exact .finite (-sign) hpos h

/-- Greater numbers stand at greater places. -/
lemma rank_lt (h : IsExact a u) (h' : IsExact b v) (hlt : a < b) : unpackedRank u < unpackedRank v := by
  cases h with
  | zero sign =>
    cases h' with
    | zero => exact absurd hlt (lt_irrefl _)
    | finite sign' hpos' h' =>
      cases sign' with
      | positive => simp [unpackedRank, Prod.Lex.toLex_lt_toLex]
      | negative => simp only [signed] at hlt; omega
  | finite sign hpos h =>
    cases h' with
    | zero =>
      cases sign with
      | positive => simp only [signed] at hlt; omega
      | negative => simp [unpackedRank, Prod.Lex.toLex_lt_toLex]
    | finite sign' hpos' h' =>
      cases sign <;> cases sign'
      case positive.positive =>
        have hparts := h.lt_parts h' (Int.ofNat_lt.1 hlt)
        simpa [unpackedRank, Prod.Lex.toLex_lt_toLex] using hparts
      case negative.negative =>
        have hparts := h'.lt_parts h (by simpa [signed] using hlt)
        simp [unpackedRank, Prod.Lex.toLex_lt_toLex]
        omega
      case negative.positive => simp [unpackedRank, Prod.Lex.toLex_lt_toLex]
      case positive.negative => simp only [signed] at hlt; omega

/-- Floats that are exactly the same number have the same place. -/
lemma rank_eq (h : IsExact a u) (h' : IsExact a v) : unpackedRank u = unpackedRank v := by
  generalize hb : a = b at h'
  cases h with
  | zero sign =>
    cases h' with
    | zero => rfl
    | finite sign' hpos' h' =>
      have hn := h'.pos
      cases sign' <;> simp only [signed] at hb <;> omega
  | finite sign hpos h =>
    have hn := h.pos
    cases h' with
    | zero => cases sign <;> simp only [signed] at hb <;> omega
    | finite sign' hpos' h' =>
      have hn' := h'.pos
      cases sign <;> cases sign' <;> simp only [signed] at hb
      case positive.positive | negative.negative =>
        obtain rfl := by simpa using hb
        obtain ⟨rfl, rfl⟩ := h.parts_eq h'
        rfl
      case positive.negative | negative.positive => omega

/-- Exact floats are in the order of their numbers. -/
lemma rank_lt_iff (h : IsExact a u) (h' : IsExact b v) : unpackedRank u < unpackedRank v ↔ a < b := by
  refine ⟨fun hlt => ?_, h.rank_lt h'⟩
  rcases Int.lt_trichotomy a b with hab | rfl | hab
  · exact hab
  · exact absurd (h.rank_eq h') hlt.ne
  · exact absurd (h'.rank_lt h hab) hlt.not_gt

/-- Exact floats have one place exactly if they are the same number. -/
lemma rank_eq_iff (h : IsExact a u) (h' : IsExact b v) : unpackedRank u = unpackedRank v ↔ a = b := by
  refine ⟨fun heq => ?_, fun hab => (hab ▸ h).rank_eq h'⟩
  have hnlt := mt (h.rank_lt_iff h').2 heq.not_lt
  have hngt := mt (h'.rank_lt_iff h).2 heq.not_gt
  omega

end IsExact

/-! ### Rounding to a double -/

/-- A rounded mantissa stands for the whole number that the rounded quotient is. -/
lemma isExact_round (sign : Sign) {m n k : Nat} {e : Int} (hm : 0 < m) (hlog : m.log2 = 52 + k)
    (he : -52 ≤ e + k)
    (hvalue : n * 2 ^ 52 * 2 ^ (-52 - e).toNat = divRoundEven m (2 ^ k) * 2 ^ k * 2 ^ (e + 52).toNat) :
    IsExact (signed sign n) (roundWithAccuracy .binary64 sign m e .exact) := by
  obtain ⟨m', e', hpos, hround, hlo, hhi, hexp, hm'⟩ :=
    exists_round_eq (e := e) sign hm hlog (by omega)
  rw [hround]
  refine .finite sign hpos ⟨hlo, hhi, by omega, ?_⟩
  have hsum : (e' + 52).toNat + (-52 - e).toNat = (e' - e).toNat + (e + 52).toNat := by omega
  refine Nat.eq_of_mul_eq_mul_right (Nat.two_pow_pos (-52 - e).toNat) ?_
  calc m' * 2 ^ (e' + 52).toNat * 2 ^ (-52 - e).toNat
      = m' * 2 ^ ((e' + 52).toNat + (-52 - e).toNat) := by rw [Nat.mul_assoc, ← Nat.pow_add]
    _ = m' * 2 ^ (e' - e).toNat * 2 ^ (e + 52).toNat := by rw [hsum, Nat.pow_add, Nat.mul_assoc]
    _ = n * 2 ^ 52 * 2 ^ (-52 - e).toNat := by rw [hm', hvalue]

/-- A number of at most 53 bits is converted as it is. -/
lemma isExact_ofUInt64 {n : Nat} (hlt : n < 2 ^ 53) :
    IsExact n (UnpackedFloat.ofUInt64 .binary64 n.toUInt64) := by
  rcases Nat.eq_zero_or_pos n with rfl | hpos
  · exact .zero _
  have hword : n.toUInt64.toNat = n := by
    rw [Nat.toUInt64_eq, UInt64.toNat_ofNat', Nat.mod_eq_of_lt (by omega)]
  have hlog : n.log2 ≤ 52 := Nat.le_of_lt_succ ((Nat.log2_lt hpos.ne').2 hlt)
  have hcompare : compare (n : Int) 0 = .gt := Int.compare_eq_gt.2 (Int.natCast_pos.2 hpos)
  have htarget : Format.binary64.targetExponent (totalExponent n 0) = (n.log2 : Int) - 52 := by
    simp only [Format.targetExponent, totalExponent, Format.mantissaBits, Format.minExponent]
    omega
  have hshift : (0 - ((n.log2 : Int) - 52)).toNat = 52 - n.log2 := by omega
  simp only [UnpackedFloat.ofUInt64, UnpackedFloat.ofNat, UnpackedFloat.ofInt, UnpackedFloat.normalize,
    hword, hcompare, Int.toNat_natCast, UnpackedFloat.round, htarget, decreaseExponent, hshift,
    Nat.shiftLeft_eq]
  refine isExact_round .positive (n := n) (k := 0) (Nat.mul_pos hpos (Nat.two_pow_pos _)) ?_ ?_ ?_
  · rw [log2_mul_two_pow hpos]
    omega
  · omega
  · have hexp : (0 - ((52 - n.log2 : Nat) : Int) + 52).toNat = n.log2 := by omega
    have hzero : (-52 - (0 - ((52 - n.log2 : Nat) : Int))).toNat = 0 := by omega
    rw [Nat.pow_zero, divRoundEven_one, hexp, hzero, Nat.mul_assoc n, Nat.pow_zero, Nat.mul_one, Nat.mul_one,
      Nat.mul_assoc, ← Nat.pow_add, Nat.sub_add_cancel hlog]

/-- The product with one is the number itself. -/
lemma IsExact.mul_one {a : Int} {u : UnpackedFloat} (h : IsExact a u) :
    IsExact a (u.mul .binary64 (.finite .positive (2 ^ 52) (-52) (by decide))) := by
  cases h with
  | zero sign => exact .zero _
  | @finite sign n m e hpos h =>
    have hsign : sign * .positive = sign := by cases sign <;> rfl
    have hlog : m.log2 = 52 := (Nat.log2_eq_iff hpos.ne').2 ⟨h.lower, h.upper⟩
    have hexp := h.exponent
    simp only [UnpackedFloat.mul, hsign]
    refine isExact_round sign (k := 52) (Nat.mul_pos hpos (Nat.two_pow_pos 52)) ?_ ?_ ?_
    · rw [log2_mul_two_pow hpos, hlog]
    · omega
    · have hdiv : divRoundEven (m * 2 ^ 52) (2 ^ 52) = m := by
        have hone := divRoundEven_mul_right m 1 (Nat.two_pow_pos 52)
        rwa [Nat.one_mul, divRoundEven_one] at hone
      have hsum : (e + 52).toNat + (-52 - (e + -52)).toNat = 52 + (e + -52 + 52).toNat := by omega
      rw [hdiv, ← h.value, Nat.mul_assoc, Nat.mul_assoc, ← Nat.pow_add, ← Nat.pow_add, hsum]

/-- A number of more bits is rounded. -/
lemma isExact_ofScientific {n : Nat} (hle : 2 ^ 53 ≤ n) :
    IsExact (nearestNat n) (UnpackedFloat.ofScientific .binary64 n 0) := by
  have hpos : 0 < n := (Nat.two_pow_pos 53).trans_le hle
  have hlog : 53 ≤ n.log2 := (Nat.le_log2 hpos.ne').2 hle
  have hexponent : ¬ (0 : Int) < -(2 ^ Format.binary64.exponentBits + n.log2) := by
    change ¬ (0 : Int) < -(2 ^ 11 + n.log2)
    omega
  have hten : 10 ^ (0 : Int).toNat = 1 := rfl
  unfold UnpackedFloat.ofScientific
  rw [dif_neg hpos.ne', if_neg (by decide), if_neg hexponent, if_pos (le_refl 0)]
  simp only [Nat.shiftLeft_eq, UnpackedFloat.mul, hten, Nat.mul_one]
  refine isExact_round .positive (n := nearestNat n) (k := n.log2 + 1)
    (Nat.mul_pos hpos (Nat.two_pow_pos _)) ?_ ?_ ?_
  · rw [log2_mul_two_pow hpos]
    change n.log2 + 53 = _
    omega
  · change -52 ≤ (-53 + 0 : Int) + ((n.log2 + 1 : Nat) : Int)
    omega
  · change nearestNat n * 2 ^ 52 * 2 ^ 1 =
      divRoundEven (n * 2 ^ 53) (2 ^ (n.log2 + 1)) * 2 ^ (n.log2 + 1) * 2 ^ 0
    have hsplit : n.log2 + 1 = n.log2 - 52 + 53 := by omega
    rw [hsplit, Nat.pow_add, divRoundEven_mul_right _ _ (Nat.two_pow_pos 53), nearestNat]
    ring

/-! ### The double of a whole number -/

/-- A natural number of 64 bits becomes the nearest number that is exact. -/
lemma isExact_ofNat {n : Nat} (hlt : n < 2 ^ 64) : IsExact (nearestNat n) (Float.ofNat n).toModel.unpack := by
  have hle : (nearestNat n : Int).natAbs ≤ 2 ^ 64 := nearestNat_le_two_pow hlt
  change IsExact (nearestNat n) (Float.ofScientific n false 0).toModel.unpack
  unfold Float.ofScientific
  split
  · next h =>
    -- Small numbers are converted directly and multiplied by one.
    have hone : (Float.ofBits 4607182418800017408).toModel.unpack =
        .finite .positive (2 ^ 52) (-52) (by decide) := rfl
    have hword : IsExact n (UnpackedFloat.ofUInt64 .binary64 n.toUInt64) := isExact_ofUInt64 h.1
    rw [nearestNat_of_lt h.1] at hle ⊢
    change IsExact n (unpack .binary64 (pack .binary64 (UnpackedFloat.mul .binary64
      (unpack .binary64 (pack .binary64 (.ofUInt64 .binary64 n.toUInt64)))
      (Float.ofBits 4607182418800017408).toModel.unpack)))
    rw [hone, hword.unpack_pack hle, hword.mul_one.unpack_pack hle]
    exact hword.mul_one
  · next h =>
    have hround : IsExact (nearestNat n) (UnpackedFloat.ofScientific .binary64 n 0) :=
      isExact_ofScientific (by omega)
    change IsExact (nearestNat n) (unpack .binary64 (pack .binary64 (.ofScientific .binary64 n 0)))
    rw [hround.unpack_pack hle]
    exact hround

/-- The double of a positive whole number of 64 bits is neither zero nor infinite. -/
lemma exists_finite_ofNat {n : Nat} (hpos : 0 < n) (hlt : n < 2 ^ 64) :
    ∃ sign m e, ∃ hm : 0 < m, (Float.ofNat n).toModel.unpack = .finite sign m e hm := by
  have hexact := isExact_ofNat hlt
  have hnearest : 0 < nearestNat n := (Nat.two_pow_pos _).trans_le (nearestNat_bounds hpos).1
  generalize (Float.ofNat n).toModel.unpack = u at hexact ⊢
  generalize ha : (nearestNat n : Int) = a at hexact
  cases hexact with
  | zero => omega
  | finite sign hm h => exact ⟨sign, _, _, hm, rfl⟩

/-- A double is finite if it is a whole number. -/
lemma isFinite_of_isExact {a : Int} {x : Float} (h : IsExact a x.toModel.unpack) : isFinite x = true := by
  have hbiased : x.toBits.toNat / Nat.pow 2 52 % Nat.pow 2 11 ≠ 2047 := by
    intro hbiased
    -- All bits of the exponent are set, so that the parts are infinite or not a number.
    have hbits : @UnpackedFloat.unpackExponent .binary64 x.toModel.toBits.toBitVec = -1#11 := by
      refine BitVec.eq_of_toNat_eq ?_
      change x.toBits.toNat >>> 52 % 2 ^ 11 = 2 ^ 11 - 1
      rw [Nat.shiftRight_eq_div_pow]
      exact hbiased
    rw [Float.Model.unpack, unpack] at h
    simp only [hbits, if_true] at h
    split at h
    · exact h.ne_infinity _ rfl
    · exact h.ne_notANumber rfl
  unfold isFinite Dyadic.ofFloat?
  dsimp only
  rw [if_neg hbiased]
  split <;> rfl

section OfInt

variable {a b : Int}

/-- The double of a whole number of 64 bits is the number rounded to 53 bits. -/
theorem isExact_ofInt (ha : a.natAbs < 2 ^ 64) : IsExact (nearest a) (Float.ofInt a).toModel.unpack := by
  cases a with
  | ofNat n => exact isExact_ofNat ha
  | negSucc n =>
    have hle : (-(nearestNat (n + 1) : Int)).natAbs ≤ 2 ^ 64 := by
      rw [Int.natAbs_neg]
      exact nearestNat_le_two_pow ha
    have hneg : IsExact (-(nearestNat (n + 1) : Int)) (Float.ofNat (n + 1)).toModel.unpack.neg :=
      (isExact_ofNat ha).neg
    change IsExact (-(nearestNat (n + 1) : Int))
      (unpack .binary64 (pack .binary64 (Float.ofNat (n + 1)).toModel.unpack.neg))
    rw [hneg.unpack_pack hle]
    exact hneg

/-- A whole number of 64 bits becomes a number. -/
lemma isNaN_ofInt (ha : a.natAbs < 2 ^ 64) : (Float.ofInt a).isNaN = false :=
  Bool.eq_false_iff.2 fun hnan => (isExact_ofInt ha).ne_notANumber (isNaN_eq_true_iff.1 hnan)

/-- The double of a whole number of 64 bits is finite. -/
lemma isFinite_ofInt (ha : a.natAbs < 2 ^ 64) : isFinite (Float.ofInt a) = true :=
  isFinite_of_isExact (isExact_ofInt ha)

/-- Whole numbers of 64 bits become less exactly if the nearest exact numbers are less. -/
theorem ofInt_lt_ofInt_iff (ha : a.natAbs < 2 ^ 64) (hb : b.natAbs < 2 ^ 64) :
    Float.ofInt a < Float.ofInt b ↔ nearest a < nearest b :=
  (lt_iff_rank_lt (isNaN_ofInt ha) (isNaN_ofInt hb)).trans
    ((isExact_ofInt ha).rank_lt_iff (isExact_ofInt hb))

/-- Whole numbers of 64 bits become equal exactly if the nearest exact number is the same. -/
theorem ofInt_beq_ofInt_iff (ha : a.natAbs < 2 ^ 64) (hb : b.natAbs < 2 ^ 64) :
    Float.ofInt a == Float.ofInt b ↔ nearest a = nearest b :=
  (beq_iff_rank_eq (isNaN_ofInt ha) (isNaN_ofInt hb)).trans
    ((isExact_ofInt ha).rank_eq_iff (isExact_ofInt hb))

end OfInt

end EntityDump.Numeric
