import EntityDump.Accumulator
import Mathlib
/-!
# The order of doubles

Doubles that are numbers are ordered by the place that they take among all of them (`lt_iff_rank_lt`); the
two zeros take the same place. So the lesser and the greater of two doubles obey the usual laws
(`lesser_assoc`, `rank_lesser` and their counterparts). Every JSON number has a double that is a number
(`isNaN_toFloat`).
-/

namespace EntityDump

open Float.Model (UnpackedFloat Format)

namespace Numeric

/-! ### The place of a double -/

/-- The place of the parts of a double among all others: infinities outside, numbers by their exponent and
mantissa, the zeros in the middle. Not-a-number has no place. -/
def unpackedRank : UnpackedFloat → ℤ ×ₗ ℤ ×ₗ ℤ
  | .infinity .negative => toLex (-2, toLex (0, 0))
  | .finite .negative mantissa exponent _ => toLex (-1, toLex (-exponent, -mantissa))
  | .zero _ => toLex (0, toLex (0, 0))
  | .finite .positive mantissa exponent _ => toLex (1, toLex (exponent, mantissa))
  | .infinity .positive => toLex (2, toLex (0, 0))
  | .notANumber => toLex (3, toLex (0, 0))

/-- The place of a double. -/
def rank (x : Float) : ℤ ×ₗ ℤ ×ₗ ℤ :=
  unpackedRank x.toModel.unpack

/-- Of two unpacked numbers one is the less if its place is the lower. -/
lemma compare_eq_lt_iff {x y : UnpackedFloat} (hx : x ≠ .notANumber) (hy : y ≠ .notANumber) :
    x.compare y = some .lt ↔ unpackedRank x < unpackedRank y := by
  rcases x with ⟨_ | _⟩ | _ | _ | ⟨_ | _, mx, ex, hmx⟩ <;>
    rcases y with ⟨_ | _⟩ | _ | _ | ⟨_ | _, my, ey, hmy⟩
  case finite.negative.finite.negative =>
    simp [unpackedRank, UnpackedFloat.compare, Prod.Lex.toLex_lt_toLex, Ordering.then_eq_gt,
      compare_gt_iff_gt]
  case finite.positive.finite.positive =>
    simp [unpackedRank, UnpackedFloat.compare, Prod.Lex.toLex_lt_toLex, Ordering.then_eq_lt,
      compare_lt_iff_lt]
  all_goals first
    | exact absurd rfl hx
    | exact absurd rfl hy
    | simp [unpackedRank, UnpackedFloat.compare, Prod.Lex.toLex_lt_toLex, compare]

/-- Two unpacked numbers are equal if they have the same place. -/
lemma compare_eq_eq_iff {x y : UnpackedFloat} (hx : x ≠ .notANumber) (hy : y ≠ .notANumber) :
    x.compare y = some .eq ↔ unpackedRank x = unpackedRank y := by
  rcases x with ⟨_ | _⟩ | _ | _ | ⟨_ | _, mx, ex, hmx⟩ <;>
    rcases y with ⟨_ | _⟩ | _ | _ | ⟨_ | _, my, ey, hmy⟩
  case finite.negative.finite.negative | finite.positive.finite.positive =>
    simp [unpackedRank, UnpackedFloat.compare, Ordering.then_eq_eq]
  all_goals first
    | exact absurd rfl hx
    | exact absurd rfl hy
    | simp [unpackedRank, UnpackedFloat.compare, compare]

section Order

variable {x y z : Float}

/-- A float is not-a-number exactly if it unpacks to it. -/
lemma isNaN_eq_true_iff : x.isNaN = true ↔ x.toModel.unpack = .notANumber :=
  UnpackedFloat.isNaN_iff

/-- A number does not unpack to not-a-number. -/
lemma unpack_ne_notANumber (hx : x.isNaN = false) : x.toModel.unpack ≠ .notANumber := by
  rw [Ne, ← isNaN_eq_true_iff, hx]
  exact Bool.false_ne_true

/-- Doubles that are numbers are ordered by their places. -/
theorem lt_iff_rank_lt (hx : x.isNaN = false) (hy : y.isNaN = false) : x < y ↔ rank x < rank y := by
  rw [rank, rank, ← compare_eq_lt_iff (unpack_ne_notANumber hx) (unpack_ne_notANumber hy)]
  exact decide_eq_true_iff.trans (beq_iff_eq (α := Option Ordering))

/-- Doubles are equal as numbers if they take the same place. -/
theorem beq_iff_rank_eq (hx : x.isNaN = false) (hy : y.isNaN = false) : x == y ↔ rank x = rank y := by
  rw [rank, rank, ← compare_eq_eq_iff (unpack_ne_notANumber hx) (unpack_ne_notANumber hy)]
  exact beq_iff_eq (α := Option Ordering)

/-- One number is at most another if it compares as less or as equal. -/
lemma le_iff_compare : x ≤ y ↔ x.toModel.unpack.compare y.toModel.unpack = some .lt ∨
    x.toModel.unpack.compare y.toModel.unpack = some .eq := by
  refine decide_eq_true_iff.trans ?_
  change (x.toModel.unpack.compare y.toModel.unpack).any Ordering.isLE = true ↔ _
  cases x.toModel.unpack.compare y.toModel.unpack with
  | none => simp
  | some order => cases order <;> simp

/-- Doubles that are numbers are at most others if their places are. -/
theorem le_iff_rank_le (hx : x.isNaN = false) (hy : y.isNaN = false) : x ≤ y ↔ rank x ≤ rank y := by
  rw [le_iff_compare, compare_eq_lt_iff (unpack_ne_notANumber hx) (unpack_ne_notANumber hy),
    compare_eq_eq_iff (unpack_ne_notANumber hx) (unpack_ne_notANumber hy), le_iff_lt_or_eq]
  rfl

lemma le_of_lt (h : x < y) : x ≤ y :=
  le_iff_compare.2 (.inl ((decide_eq_true_iff.trans (beq_iff_eq (α := Option Ordering))).1 h))

/-- Only numbers can be compared. -/
lemma isNaN_of_le (h : x ≤ y) : x.isNaN = false ∧ y.isNaN = false := by
  rw [le_iff_compare] at h
  constructor
  · refine Bool.eq_false_iff.2 fun hnan => ?_
    rw [isNaN_eq_true_iff.1 hnan] at h
    simp [UnpackedFloat.compare] at h
  · refine Bool.eq_false_iff.2 fun hnan => ?_
    rw [isNaN_eq_true_iff.1 hnan] at h
    cases hx : x.toModel.unpack <;> simp [UnpackedFloat.compare, hx] at h

lemma lt_of_lt_of_le (h : x < y) (h' : y ≤ z) : x < z := by
  obtain ⟨hx, hy⟩ := isNaN_of_le (le_of_lt h)
  have hz := (isNaN_of_le h').2
  rw [lt_iff_rank_lt hx hz]
  exact ((lt_iff_rank_lt hx hy).1 h).trans_le ((le_iff_rank_le hy hz).1 h')

lemma lt_of_le_of_lt (h : x ≤ y) (h' : y < z) : x < z := by
  obtain ⟨hx, hy⟩ := isNaN_of_le h
  have hz := (isNaN_of_le (le_of_lt h')).2
  rw [lt_iff_rank_lt hx hz]
  exact ((le_iff_rank_le hx hy).1 h).trans_lt ((lt_iff_rank_lt hy hz).1 h')

/-! ### The lesser and the greater of two doubles -/

open Accumulator (lesser greater)

/-- The lesser of two doubles is one of them. -/
lemma lesser_of {p : Float → Prop} (hx : p x) (hy : p y) : p (lesser x y) := by
  unfold lesser
  split
  · exact hy
  · exact hx

/-- The greater of two doubles is one of them. -/
lemma greater_of {p : Float → Prop} (hx : p x) (hy : p y) : p (greater x y) := by
  unfold greater
  split
  · exact hy
  · exact hx

/-- The lesser of two numbers has the lower of their places. -/
lemma rank_lesser (hx : x.isNaN = false) (hy : y.isNaN = false) :
    rank (lesser x y) = min (rank x) (rank y) := by
  have hlt := lt_iff_rank_lt hy hx
  unfold lesser
  split
  · next h => exact (min_eq_right (hlt.1 h).le).symm
  · next h => exact (min_eq_left (not_lt.1 (mt hlt.2 h))).symm

/-- The greater of two numbers has the higher of their places. -/
lemma rank_greater (hx : x.isNaN = false) (hy : y.isNaN = false) :
    rank (greater x y) = max (rank x) (rank y) := by
  have hlt := lt_iff_rank_lt hx hy
  unfold greater
  split
  · next h => exact (max_eq_right (hlt.1 h).le).symm
  · next h => exact (max_eq_left (not_lt.1 (mt hlt.2 h))).symm

/-- Of three doubles the first of the least ones is taken, however they are grouped. -/
theorem lesser_assoc (hx : x.isNaN = false) (hy : y.isNaN = false) (hz : z.isNaN = false) :
    lesser (lesser x y) z = lesser x (lesser y z) := by
  have hyx := lt_iff_rank_lt hy hx
  have hzy := lt_iff_rank_lt hz hy
  have hzx := lt_iff_rank_lt hz hx
  by_cases h : rank y < rank x <;> by_cases h' : rank z < rank y
  · have := h'.trans h
    simp_all [lesser]
  · simp_all [lesser]
  · simp_all [lesser]
  · have := (not_lt.1 h).trans (not_lt.1 h')
    simp_all [lesser]

/-- Of three doubles the first of the greatest ones is taken, however they are grouped. -/
theorem greater_assoc (hx : x.isNaN = false) (hy : y.isNaN = false) (hz : z.isNaN = false) :
    greater (greater x y) z = greater x (greater y z) := by
  have hxy := lt_iff_rank_lt hx hy
  have hyz := lt_iff_rank_lt hy hz
  have hxz := lt_iff_rank_lt hx hz
  by_cases h : rank x < rank y <;> by_cases h' : rank y < rank z
  · have := h.trans h'
    simp_all [greater]
  · simp_all [greater]
  · simp_all [greater]
  · have := (not_lt.1 h').trans (not_lt.1 h)
    simp_all [greater]

/-- The lesser of two numbers is the same up to equality from either side. -/
lemma lesser_comm (hx : x.isNaN = false) (hy : y.isNaN = false) : lesser x y == lesser y x := by
  rw [beq_iff_rank_eq (lesser_of (p := (Float.isNaN · = false)) hx hy)
    (lesser_of (p := (Float.isNaN · = false)) hy hx), rank_lesser hx hy, rank_lesser hy hx, min_comm]

/-- The greater of two numbers is the same up to equality from either side. -/
lemma greater_comm (hx : x.isNaN = false) (hy : y.isNaN = false) : greater x y == greater y x := by
  rw [beq_iff_rank_eq (greater_of (p := (Float.isNaN · = false)) hx hy)
    (greater_of (p := (Float.isNaN · = false)) hy hx), rank_greater hx hy, rank_greater hy hx, max_comm]

/-- The lesser of a number and itself is this number, also if it is not-a-number. -/
lemma lesser_self (x : Float) : lesser x x = x := by
  simp [lesser]

/-- The greater of a number and itself is this number, also if it is not-a-number. -/
lemma greater_self (x : Float) : greater x x = x := by
  simp [greater]

end Order

/-! ### JSON numbers are numbers -/

/-- What stands for not-a-number has all bits of the exponent set, and some of the mantissa. -/
lemma bits_of_unpack_eq {bits : BitVec Format.binary64.numBits}
    (h : UnpackedFloat.unpack .binary64 bits = .notANumber) :
    UnpackedFloat.unpackExponent bits = -1#11 ∧ UnpackedFloat.unpackMantissa bits ≠ 0#52 := by
  rw [UnpackedFloat.unpack] at h
  split at h
  · next hexponent =>
    split at h
    · cases h
    · next hmantissa => exact ⟨hexponent, hmantissa⟩
  · split at h
    · split at h <;> cases h
    · cases h

/-- Packing turns nothing else into not-a-number. -/
lemma unpack_pack_ne_notANumber {x : UnpackedFloat} (h : x ≠ .notANumber) :
    (Float.Model.pack x).unpack ≠ .notANumber := by
  intro hnan
  obtain ⟨hexponent, hmantissa⟩ := bits_of_unpack_eq hnan
  have hinfinity : ∀ s, UnpackedFloat.unpackMantissa
      (UnpackedFloat.packedInfinity Format.binary64 s) = 0#52 := by
    intro s
    cases s <;> decide
  have hcomponents : ∀ s (exponent : BitVec 11) mantissa, exponent ≠ -1#11 →
      UnpackedFloat.unpackExponent
        (UnpackedFloat.packComponents Format.binary64 s exponent mantissa) ≠ -1#11 := by
    intro s exponent mantissa hne
    rwa [UnpackedFloat.unpackExponent_packComponents]
  -- Only infinity has all bits of the exponent set, and it has none of the mantissa.
  dsimp only [Float.Model.pack] at hexponent hmantissa
  cases x with
  | notANumber => exact h rfl
  | infinity s => exact hmantissa (hinfinity s)
  | zero s => exact hcomponents s 0#11 _ (by decide) hexponent
  | finite s mantissa exponent hpos =>
    rw [UnpackedFloat.pack] at hexponent hmantissa
    split at hexponent
    · next hlarge =>
      rw [if_pos hlarge] at hmantissa
      exact hmantissa (hinfinity s)
    · next hlarge =>
      split at hexponent
      · refine hcomponents s _ _ (fun hbits => hlarge ?_) hexponent
        have hexp : (exponent + Format.exponentBias .binary64 +
            Format.mantissaBitsWithoutImplicit .binary64).toNat % 2 ^ 11 = 2 ^ 11 - 1 :=
          congrArg BitVec.toNat hbits
        change 2 ^ 11 ≤ _
        omega
      · exact hcomponents s 0#11 _ (by decide) hexponent

/-- Whatever is packed and is a number stays one. -/
lemma isNaN_pack {x : UnpackedFloat} (h : x ≠ .notANumber) :
    (Float.ofModel (Float.Model.pack x)).isNaN = false :=
  Bool.eq_false_iff.2 fun hnan => unpack_pack_ne_notANumber h (isNaN_eq_true_iff.1 hnan)

/-- Rounding gives a number. -/
lemma round_ne_notANumber (sign : UnpackedFloat.Sign) (mantissa : Nat) (exponent : Int)
    (accuracy : UnpackedFloat.Accuracy) :
    UnpackedFloat.roundWithAccuracy .binary64 sign mantissa exponent accuracy ≠ .notANumber := by
  unfold UnpackedFloat.roundWithAccuracy
  dsimp only
  split <;> simp

/-- A product with a number that is not zero is a number. -/
lemma mul_ne_notANumber {x : UnpackedFloat} (h : x ≠ .notANumber) (sign : UnpackedFloat.Sign) (mantissa : Nat)
    (exponent : Int) (hpos : 0 < mantissa) :
    x.mul .binary64 (.finite sign mantissa exponent hpos) ≠ .notANumber := by
  cases x with
  | notANumber => exact absurd rfl h
  | infinity s => simp [UnpackedFloat.mul]
  | zero s => simp [UnpackedFloat.mul]
  | finite s m e hm => exact round_ne_notANumber _ _ _ _

/-- A quotient by a number that is not zero is a number. -/
lemma div_ne_notANumber {x : UnpackedFloat} (h : x ≠ .notANumber) (sign : UnpackedFloat.Sign) (mantissa : Nat)
    (exponent : Int) (hpos : 0 < mantissa) :
    x.div .binary64 (.finite sign mantissa exponent hpos) ≠ .notANumber := by
  cases x with
  | notANumber => exact absurd rfl h
  | infinity s => simp [UnpackedFloat.div]
  | zero s => simp [UnpackedFloat.div]
  | finite s m e hm => exact round_ne_notANumber _ _ _ _

/-- A scaled whole number is a number. -/
lemma ofScientific_ne_notANumber (mantissa : Nat) (exponent : Int) :
    UnpackedFloat.ofScientific .binary64 mantissa exponent ≠ .notANumber := by
  unfold UnpackedFloat.ofScientific
  split
  · simp
  split
  · simp
  split
  · simp
  split
  · exact mul_ne_notANumber (by simp) _ _ _ _
  · exact round_ne_notANumber _ _ _ _

/-- Whole numbers of 64 bits are numbers. -/
lemma ofUInt64_ne_notANumber (n : UInt64) : UnpackedFloat.ofUInt64 .binary64 n ≠ .notANumber := by
  unfold UnpackedFloat.ofUInt64 UnpackedFloat.ofNat UnpackedFloat.ofInt UnpackedFloat.normalize
  split
  · exact round_ne_notANumber _ _ _ _
  · simp
  · exact round_ne_notANumber _ _ _ _

/-- The double of a whole number is a number. -/
lemma isNaN_ofNat (n : Nat) : (Float.ofNat n).isNaN = false := by
  change (Float.ofScientific n false 0).isNaN = false
  unfold Float.ofScientific
  split
  · -- Small numbers are converted directly and multiplied by one.
    have hone : (Float.ofBits 4607182418800017408).toModel.unpack =
        .finite .positive (2 ^ 52) (-52) (by decide) := rfl
    have hproduct : UnpackedFloat.mul .binary64 (Float.Model.ofUInt64 n.toUInt64).unpack
        (Float.ofBits 4607182418800017408).toModel.unpack ≠ .notANumber := by
      rw [hone]
      exact mul_ne_notANumber (unpack_pack_ne_notANumber (ofUInt64_ne_notANumber _)) _ _ _ _
    exact isNaN_pack hproduct
  · exact isNaN_pack (ofScientific_ne_notANumber _ _)

/-- The negative of a number is a number. -/
lemma isNaN_neg {x : Float} (h : x.isNaN = false) : x.neg.isNaN = false := by
  refine isNaN_pack ?_
  have hx := unpack_ne_notANumber h
  cases hunpack : x.toModel.unpack <;> simp_all [UnpackedFloat.neg]

/-- A finite double is a number. -/
lemma isNaN_of_isFinite {x : Float} (h : isFinite x = true) : x.isNaN = false := by
  refine Bool.eq_false_iff.2 fun hnan => ?_
  have hexponent : x.toBits.toNat >>> 52 % 2 ^ 11 = 2 ^ 11 - 1 :=
    congrArg BitVec.toNat (bits_of_unpack_eq (isNaN_eq_true_iff.1 hnan)).1
  have hbiased : x.toBits.toNat / Nat.pow 2 52 % Nat.pow 2 11 = 2047 := by
    rwa [Nat.shiftRight_eq_div_pow] at hexponent
  simp [isFinite, Dyadic.ofFloat?, hbiased] at h

/-- The double of a JSON number is a number. -/
theorem isNaN_toFloat {n : Json.Number} (h : ∀ x, n = .float x → isFinite x = true) :
    n.toFloat.isNaN = false := by
  cases n with
  | int n =>
    cases n with
    | ofNat n => exact isNaN_ofNat n
    | negSucc n => exact isNaN_neg (isNaN_ofNat _)
  | float x => exact isNaN_of_isFinite (h x rfl)

end Numeric

end EntityDump
