import EntityDump.Proofs.Numeric.NearestDouble
/-!
# Truncated doubles

The parts of a double are those by which the arithmetic of doubles computes (`ofFloat?_eq`), so the order of
doubles can be read from them. Leaving out the fraction keeps that order (`truncate_le_truncate`), and the double
of a whole number of at most 53 bits is truncated to the number (`truncate_ofInt`).
-/

namespace EntityDump.Numeric

open Float.Model (UnpackedFloat Format)
open Float.Model.UnpackedFloat (Sign unpack unpackSign unpackExponent unpackMantissa)

/-! ### Parts -/

/-- The sign is a minus. -/
def isMinus : Sign → Bool
  | .positive => false
  | .negative => true

/-- The parts of a double by which its arithmetic computes, as a dyadic number. -/
def dyadic? : UnpackedFloat → Option Dyadic
  | .zero sign => some ⟨isMinus sign, 0, -1074⟩
  | .finite sign mantissa exponent _ => some ⟨isMinus sign, mantissa, exponent⟩
  | .infinity _ => none
  | .notANumber => none

section Parts

variable (x : Float)

/-- The exponent stands in the eleven bits above those of the mantissa. -/
lemma toNat_unpackExponent :
    (@unpackExponent .binary64 x.toModel.toBits.toBitVec).toNat =
      x.toBits.toNat / Nat.pow 2 52 % Nat.pow 2 11 := by
  change x.toBits.toNat >>> 52 % 2 ^ 11 = _
  rw [Nat.shiftRight_eq_div_pow]

/-- The mantissa stands in the lowest 52 bits. -/
lemma toNat_unpackMantissa :
    (@unpackMantissa .binary64 x.toModel.toBits.toBitVec).toNat =
      x.toBits.toNat % Nat.pow 2 52 :=
  rfl

/-- The sign stands in the highest bit. -/
lemma isMinus_unpackSign :
    isMinus (Sign.ofBitVec (@unpackSign .binary64 x.toModel.toBits.toBitVec)) =
      (x.toBits.toNat / Nat.pow 2 63 == 1) := by
  have hbit : (@unpackSign .binary64 x.toModel.toBits.toBitVec).toNat =
      x.toBits.toNat / Nat.pow 2 63 := by
    have hword := x.toBits.toNat_lt
    change x.toBits.toNat >>> 63 % 2 ^ 1 = _
    rw [Nat.shiftRight_eq_div_pow]
    exact Nat.mod_eq_of_lt (by omega)
  rw [← hbit]
  generalize @unpackSign .binary64 x.toModel.toBits.toBitVec = bit
  revert bit
  decide

/-- A mantissa behind its highest bit, which is not stored. -/
lemma toNat_one_append_bits (v : BitVec 52) : (1#1 ++ v).toNat = v.toNat + 2 ^ 52 := by
  have hlt := v.isLt
  have hstored : BitVec.ofNat 52 (v.toNat + 2 ^ 52) = v := by
    refine BitVec.eq_of_toNat_eq ?_
    rw [BitVec.toNat_ofNat, Nat.add_mod_right, Nat.mod_eq_of_lt hlt]
  have hparts := toNat_one_append (m := v.toNat + 2 ^ 52) (by omega) (by omega)
  rwa [hstored] at hparts

/-- A double has the parts by which its arithmetic computes. -/
theorem ofFloat?_eq : Dyadic.ofFloat? x = dyadic? x.toModel.unpack := by
  have hexponent := toNat_unpackExponent x
  have hmantissa := toNat_unpackMantissa x
  have hsign := isMinus_unpackSign x
  have hinfinite : @unpackExponent .binary64 x.toModel.toBits.toBitVec = -1#11 ↔
      (@unpackExponent .binary64 x.toModel.toBits.toBitVec).toNat = 2047 :=
    BitVec.toNat_inj.symm
  have hsubnormal : @unpackExponent .binary64 x.toModel.toBits.toBitVec = 0#11 ↔
      (@unpackExponent .binary64 x.toModel.toBits.toBitVec).toNat = 0 :=
    BitVec.toNat_inj.symm
  have hzero : @unpackMantissa .binary64 x.toModel.toBits.toBitVec = 0#52 ↔
      (@unpackMantissa .binary64 x.toModel.toBits.toBitVec).toNat = 0 :=
    BitVec.toNat_inj.symm
  unfold Dyadic.ofFloat? Float.Model.unpack unpack
  dsimp only
  rw [← hexponent, ← hmantissa, ← hsign]
  split
  · next h =>
    rw [if_pos (hinfinite.2 h)]
    split <;> rfl
  · next h =>
    rw [if_neg (mt hinfinite.1 h)]
    split
    · next h' =>
      rw [if_pos (hsubnormal.2 h')]
      split
      · next hm =>
        rw [hzero.1 hm]
        rfl
      · rw [dyadic?, h']
        rfl
    · next h' =>
      rw [if_neg (mt hsubnormal.1 h'), dyadic?, toNat_one_append_bits]
      rfl

end Parts

/-! ### Leaving out the fraction -/

/-- The whole part of `m * 2^e`. -/
def wholePart (m : Nat) (e : Int) : Nat :=
  m * 2 ^ e.toNat / 2 ^ (-e).toNat

/-- The mantissa and the exponent as a double has them: the mantissa has at most 53 bits, and less only at the
least exponent. -/
structure IsCanonical (m : Nat) (e : Int) : Prop where
  upper : m < 2 ^ 53
  exponent : -1074 ≤ e
  lower : -1074 < e → 2 ^ 52 ≤ m

section WholePart

variable {m m' k : Nat} {e e' : Int} {sign : Sign}

/-- Truncation takes the whole part and gives it the sign. -/
lemma truncate_eq (d : Dyadic) :
    d.truncate = if d.negative then -(wholePart d.mantissa d.exponent : Int)
      else wholePart d.mantissa d.exponent :=
  rfl

/-- Zero has no whole part but zero. -/
lemma wholePart_zero (e : Int) : wholePart 0 e = 0 := by
  rw [wholePart, Nat.zero_mul, Nat.zero_div]

/-- A greater mantissa has no lesser whole part. -/
lemma wholePart_mono (e : Int) (h : m ≤ m') : wholePart m e ≤ wholePart m' e :=
  Nat.div_le_div_right (Nat.mul_le_mul_right _ h)

/-- A factor of two counts as much in the mantissa as in the exponent. -/
lemma wholePart_two_mul (m : Nat) (e : Int) : wholePart (2 * m) e = wholePart m (e + 1) := by
  unfold wholePart
  rcases Int.lt_or_le e 0 with h | h
  · have hexp : (e + 1).toNat = e.toNat := by omega
    have hden : (-e).toNat = (-(e + 1)).toNat + 1 := by omega
    rw [hexp, hden, Nat.pow_succ', Nat.mul_assoc, Nat.mul_div_mul_left _ _ (by decide)]
  · have hexp : (e + 1).toNat = e.toNat + 1 := by omega
    have hden : (-(e + 1)).toNat = (-e).toNat := by omega
    rw [hexp, hden, Nat.pow_succ', Nat.mul_left_comm, Nat.mul_assoc]

/-- Powers of two may stand in the mantissa or in the exponent. -/
lemma wholePart_mul_two_pow (m k : Nat) (e : Int) : wholePart (m * 2 ^ k) e = wholePart m (e + k) := by
  induction k generalizing e with
  | zero => simp
  | succ k ih =>
    have hexp : e + 1 + k = e + (k + 1 : Nat) := by omega
    rw [Nat.pow_succ', Nat.mul_left_comm, wholePart_two_mul, ih, hexp]

/-- The whole part does not shrink with a greater exponent, or with a greater mantissa at the same one. -/
lemma IsCanonical.wholePart_le (h : IsCanonical m e) (h' : IsCanonical m' e')
    (hle : e < e' ∨ e = e' ∧ m ≤ m') : wholePart m e ≤ wholePart m' e' := by
  rcases hle with hlt | ⟨rfl, hle⟩
  · obtain ⟨k, hk⟩ : ∃ k : Nat, e' = e + 1 + k := ⟨(e' - e - 1).toNat, by omega⟩
    have hlower : 2 ^ 52 ≤ m' := h'.lower (h.exponent.trans_lt hlt)
    have hupper := h.upper
    calc wholePart m e ≤ wholePart (2 * m') e := wholePart_mono e (by omega)
      _ = wholePart m' (e + 1) := wholePart_two_mul m' e
      _ ≤ wholePart (m' * 2 ^ k) (e + 1) :=
        wholePart_mono _ (Nat.le_mul_of_pos_right _ (Nat.two_pow_pos k))
      _ = wholePart m' e' := by rw [wholePart_mul_two_pow, hk]
  · exact wholePart_mono e hle

/-- A whole number is its whole part. -/
lemma IsScaled.wholePart_eq {n : Nat} (h : IsScaled n m e) : wholePart m e = n := by
  have hexp : e = -52 + ((e + 52).toNat : Nat) := by
    have he := h.exponent
    omega
  rw [hexp, ← wholePart_mul_two_pow, h.value, wholePart_mul_two_pow]
  simp [wholePart]

end WholePart

section Order

variable {x y : Float} {d d' : Dyadic}

/-- The parts of a double are canonical. -/
lemma isCanonical_of_ofFloat? (h : Dyadic.ofFloat? x = some d) : IsCanonical d.mantissa d.exponent := by
  have hmod : x.toBits.toNat % Nat.pow 2 52 < 2 ^ 52 := Nat.mod_lt _ (Nat.two_pow_pos 52)
  have hbit : Nat.pow 2 52 = 2 ^ 52 := rfl
  unfold Dyadic.ofFloat? at h
  dsimp only at h
  split at h
  · contradiction
  · split at h
    · obtain rfl := Option.some.inj h
      exact ⟨by dsimp only; omega, le_rfl, fun hlt => absurd hlt (lt_irrefl _)⟩
    · obtain rfl := Option.some.inj h
      exact ⟨by dsimp only; omega, by dsimp only; omega, fun _ => by dsimp only; omega⟩

/-- Parts at greater places have no lesser whole numbers. -/
lemma truncate_le_of_unpackedRank_le {u v : UnpackedFloat} (hu : dyadic? u = some d)
    (hv : dyadic? v = some d') (hd : IsCanonical d.mantissa d.exponent)
    (hd' : IsCanonical d'.mantissa d'.exponent) (h : unpackedRank u ≤ unpackedRank v) :
    d.truncate ≤ d'.truncate := by
  rw [truncate_eq, truncate_eq]
  rcases u with s | _ | s | ⟨s, m, e, hm⟩
  · contradiction
  · contradiction
  · obtain rfl := Option.some.inj hu
    rcases v with s' | _ | s' | ⟨s', m', e', hm'⟩
    · contradiction
    · contradiction
    · obtain rfl := Option.some.inj hv
      simp [wholePart_zero]
    · obtain rfl := Option.some.inj hv
      cases s' with
      | positive => simp [wholePart_zero, isMinus]
      | negative => simp [unpackedRank, Prod.Lex.toLex_le_toLex] at h
  · obtain rfl := Option.some.inj hu
    rcases v with s' | _ | s' | ⟨s', m', e', hm'⟩
    · contradiction
    · contradiction
    · obtain rfl := Option.some.inj hv
      cases s with
      | positive => simp [unpackedRank, Prod.Lex.toLex_le_toLex] at h
      | negative => simp [wholePart_zero, isMinus]
    · obtain rfl := Option.some.inj hv
      -- Of two negative numbers the order of the whole parts turns around; between signs zero divides them.
      cases s <;> cases s'
      case positive.negative => simp [unpackedRank, Prod.Lex.toLex_le_toLex] at h
      case negative.positive =>
        simp only [isMinus, if_true, Bool.false_eq_true, if_false]
        omega
      case positive.positive =>
        have hparts : e < e' ∨ e = e' ∧ m ≤ m' := by
          simpa [unpackedRank, Prod.Lex.toLex_le_toLex] using h
        exact Int.ofNat_le.2 (hd.wholePart_le hd' hparts)
      case negative.negative =>
        have hparts : e' < e ∨ e = e' ∧ m' ≤ m := by
          simpa [unpackedRank, Prod.Lex.toLex_le_toLex] using h
        exact neg_le_neg (Int.ofNat_le.2 (hd'.wholePart_le hd (hparts.imp_right (And.imp_left Eq.symm))))

/-- Leaving out the fractions turns no two doubles around. -/
theorem truncate_le_truncate (hx : Dyadic.ofFloat? x = some d) (hy : Dyadic.ofFloat? y = some d')
    (h : rank x ≤ rank y) : d.truncate ≤ d'.truncate := by
  have hd := isCanonical_of_ofFloat? hx
  have hd' := isCanonical_of_ofFloat? hy
  rw [ofFloat?_eq] at hx hy
  exact truncate_le_of_unpackedRank_le hx hy hd hd' h

/-- The parts of a whole number are truncated to the number. -/
lemma truncate_of_isExact {a : Int} {u : UnpackedFloat} (h : IsExact a u) (hu : dyadic? u = some d) :
    d.truncate = a := by
  rw [truncate_eq]
  cases h with
  | zero sign =>
    obtain rfl := Option.some.inj hu
    simp [wholePart_zero]
  | finite sign hm h =>
    obtain rfl := Option.some.inj hu
    cases sign <;> simp [isMinus, h.wholePart_eq, signed]

/-- The double of a whole number of at most 53 bits is truncated to the number. -/
theorem truncate_ofInt {n : Int} (hn : n.natAbs ≤ 2 ^ 53) (h : Dyadic.ofFloat? (Float.ofInt n) = some d) :
    d.truncate = n := by
  have hexact : IsExact n (Float.ofInt n).toModel.unpack := by
    have hround := isExact_ofInt (a := n) (by omega)
    rwa [nearest_of_natAbs_le hn] at hround
  rw [ofFloat?_eq] at h
  exact truncate_of_isExact hexact h

end Order

end EntityDump.Numeric
