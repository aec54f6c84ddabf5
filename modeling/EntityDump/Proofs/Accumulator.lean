import EntityDump.Accumulator
import Mathlib
/-!
# Accumulators that are fed and merged

An accumulator is fed numbers and matches of a condition (`Accumulator.take`), and it takes over another
accumulator (`Accumulator.merge`). A `Gathering` says in which order and in which tree this is done. Whatever
the tree is, the accumulator in the end describes everything that was fed anywhere in it (`Gathering.holds`),
and this description does not depend on the order. So inputs that are dealt out to several accumulators give the
same count, sum, matches, least and greatest number as one accumulator that is fed all of them:
`Gathering.accumulator_of_perm`.

The least and the greatest number that are stored have no meaning before the first number. So what they are is
said only if there is a number (`Accumulator.Holds.least`). Feeding is merging with an accumulator of one input
(`Accumulator.take_eq_merge`), so that the cases of a side without numbers are looked at once, in
`Accumulator.Holds.merge`.
-/

namespace EntityDump

/-! ### Inputs -/

/-- What an accumulator is fed. -/
inductive Input (α : Type) where
  /-- A number; there is none if it is not finite. -/
  | number (x : Option α)
  /-- The condition was met. -/
  | conditionMet

namespace Input

variable {α : Type}

/-- The number that counts. -/
def number? : Input α → Option α
  | number x => x
  | conditionMet => none

/-- The input is a match of the condition. -/
def isMatch : Input α → Bool
  | number _ => false
  | conditionMet => true

/-- The numbers that count, in order. -/
def numbers (inputs : List (Input α)) : List α :=
  inputs.filterMap number?

lemma numbers_append (inputs more : List (Input α)) :
    numbers (inputs ++ more) = numbers inputs ++ numbers more :=
  List.filterMap_append

/-- Of two lists a number is known if they are not empty. The number of the one that is not empty, or that which is
picked from both, is then known of the lists together. -/
lemma picked_of_append {known : Set α → α → Prop} {pick : α → α → α}
    (hpick : ∀ s t x y, known s x → known t y → known (s ∪ t) (pick x y)) {xs ys : List α} {x y : α}
    (hx : xs ≠ [] → known {z | z ∈ xs} x) (hy : ys ≠ [] → known {z | z ∈ ys} y) (hne : xs ++ ys ≠ []) :
    known {z | z ∈ xs ++ ys} (if ys = [] then x else if xs = [] then y else pick x y) := by
  by_cases hys : ys = []
  · subst hys
    rw [List.append_nil] at hne
    simpa using hx hne
  · by_cases hxs : xs = []
    · simpa [hxs, hys] using hy hys
    · have hunion : {z | z ∈ xs ++ ys} = {z | z ∈ xs} ∪ {z | z ∈ ys} := by
        ext z
        exact List.mem_append
      rw [if_neg hys, if_neg hxs, hunion]
      exact hpick _ _ _ _ (hx hxs) (hy hys)

end Input

namespace Accumulator

section Take

variable {α : Type} [Zero α] [Add α] [LT α] [DecidableLT α]

/-- Takes an input; a number that is not finite is left out. -/
def take (a : Accumulator α) : Input α → Accumulator α
  | .number (some x) => a.add x
  | .number none => a
  | .conditionMet => a.recordCondition

end Take

/-- A double is taken as an input whose number counts if it is finite. -/
lemma update_eq_take (a : Accumulator Float) (x : Float) :
    a.update x = a.take (.number (if Numeric.isFinite x then some x else none)) := by
  unfold update
  split
  · rfl
  · rfl

/-! ### What an accumulator holds -/

section Order

variable {K : Type} [LinearOrder K]

/-- Of numbers in order the lesser is their infimum. -/
lemma lesser_eq_inf (x y : K) : lesser x y = x ⊓ y := by
  unfold lesser
  split
  · next h => exact (inf_eq_right.2 h.le).symm
  · next h => exact (inf_eq_left.2 (not_lt.1 h)).symm

/-- Of numbers in order the greater is their supremum. -/
lemma greater_eq_sup (x y : K) : greater x y = x ⊔ y := by
  unfold greater
  split
  · next h => exact (sup_eq_right.2 h.le).symm
  · next h => exact (sup_eq_left.2 (not_lt.1 h)).symm

end Order

section Ordered

open Input (numbers isMatch)

variable {K : Type} [Field K] [LinearOrder K] {a b : Accumulator K} {inputs more : List (Input K)}

/-- The accumulator describes the inputs. What it stores as the least and the greatest number is so only if there
is a number. -/
structure Holds (a : Accumulator K) (inputs : List (Input K)) : Prop where
  count_eq : a.count = (numbers inputs).length
  sum_eq : a.sum = (numbers inputs).sum
  conditionCount_eq : a.conditionCount = inputs.countP isMatch
  least : numbers inputs ≠ [] → IsLeast {x | x ∈ numbers inputs} a.least
  greatest : numbers inputs ≠ [] → IsGreatest {x | x ∈ numbers inputs} a.greatest

lemma holds_empty : Holds (empty : Accumulator K) [] where
  count_eq := rfl
  sum_eq := rfl
  conditionCount_eq := rfl
  least h := absurd rfl h
  greatest h := absurd rfl h

/-- Nothing is counted exactly if no input is a number. -/
lemma Holds.count_eq_zero_iff (h : a.Holds inputs) : a.count = 0 ↔ numbers inputs = [] := by
  rw [h.count_eq, List.length_eq_zero_iff]

/-- Merged accumulators describe the inputs of both. -/
theorem Holds.merge (h : a.Holds inputs) (h' : b.Holds more) : (a.merge b).Holds (inputs ++ more) := by
  constructor
  case count_eq =>
    rw [Input.numbers_append, List.length_append, ← h.count_eq, ← h'.count_eq]
    rfl
  case sum_eq =>
    rw [Input.numbers_append, List.sum_append, ← h.sum_eq, ← h'.sum_eq]
    rfl
  case conditionCount_eq =>
    rw [List.countP_append, ← h.conditionCount_eq, ← h'.conditionCount_eq]
    rfl
  case least =>
    have hpick : ∀ (s t : Set K) (x y : K), IsLeast s x → IsLeast t y → IsLeast (s ∪ t) (lesser x y) := by
      intro s t x y hx hy
      rw [lesser_eq_inf]
      exact hx.union hy
    unfold Accumulator.merge
    simp only [h.count_eq_zero_iff, h'.count_eq_zero_iff, Input.numbers_append]
    exact Input.picked_of_append hpick h.least h'.least
  case greatest =>
    have hpick : ∀ (s t : Set K) (x y : K), IsGreatest s x → IsGreatest t y → IsGreatest (s ∪ t) (greater x y) := by
      intro s t x y hx hy
      rw [greater_eq_sup]
      exact hx.union hy
    unfold Accumulator.merge
    simp only [h.count_eq_zero_iff, h'.count_eq_zero_iff, Input.numbers_append]
    exact Input.picked_of_append hpick h.greatest h'.greatest

/-- Taking an input is merging with a fresh accumulator that took it. -/
lemma take_eq_merge (a : Accumulator K) (input : Input K) : a.take input = a.merge (empty.take input) := by
  cases input with
  | number x =>
    cases x with
    | none => simp [take, merge, empty]
    | some x => simp [take, merge, empty, add]
  | conditionMet => simp [take, merge, empty, recordCondition]

/-- An accumulator that takes a single input describes it. -/
lemma holds_take_empty (input : Input K) : Holds (empty.take input) [input] := by
  cases input with
  | number x =>
    cases x with
    | none => exact ⟨rfl, rfl, rfl, fun h => absurd rfl h, fun h => absurd rfl h⟩
    | some x =>
      have hone : {y | y ∈ numbers [Input.number (some x)]} = {x} := by
        ext y
        exact List.mem_singleton
      constructor
      case count_eq | conditionCount_eq => rfl
      case sum_eq => simp [take, add, empty, numbers, Input.number?]
      case least =>
        rw [hone]
        exact fun _ => isLeast_singleton
      case greatest =>
        rw [hone]
        exact fun _ => isGreatest_singleton
  | conditionMet => exact ⟨rfl, rfl, rfl, fun h => absurd rfl h, fun h => absurd rfl h⟩

/-- One more input. -/
lemma Holds.take (h : a.Holds inputs) (input : Input K) : (a.take input).Holds (inputs ++ [input]) := by
  rw [take_eq_merge]
  exact h.merge (holds_take_empty input)

/-- Inputs that are fed one after the other. -/
lemma Holds.foldl_take (h : a.Holds inputs) (more : List (Input K)) :
    (more.foldl Accumulator.take a).Holds (inputs ++ more) := by
  induction more generalizing a inputs with
  | nil => rwa [List.append_nil]
  | cons input more ih =>
    have hrest := ih (h.take input)
    rwa [List.append_assoc, List.singleton_append] at hrest

/-- The order of the inputs does not matter. -/
lemma Holds.perm (h : a.Holds inputs) (hperm : inputs.Perm more) : a.Holds more := by
  have hnumbers : (numbers inputs).Perm (numbers more) := hperm.filterMap _
  have hmem : {x | x ∈ numbers inputs} = {x | x ∈ numbers more} := by
    ext x
    exact hnumbers.mem_iff
  have hne : numbers more ≠ [] → numbers inputs ≠ [] := by
    intro hmore hinputs
    rw [hinputs] at hnumbers
    exact hmore hnumbers.nil_eq.symm
  constructor
  case count_eq => rw [h.count_eq, hnumbers.length_eq]
  case sum_eq => rw [h.sum_eq, hnumbers.sum_eq]
  case conditionCount_eq => rw [h.conditionCount_eq, hperm.countP_eq]
  case least => exact fun hmore => hmem ▸ h.least (hne hmore)
  case greatest => exact fun hmore => hmem ▸ h.greatest (hne hmore)

/-! ### What is read off an accumulator -/

/-- The least number that is answered is one of the numbers and below all. -/
lemma Holds.isLeast_min (h : a.Holds inputs) (hpos : 0 < a.count) :
    IsLeast {x | x ∈ numbers inputs} a.min := by
  rw [Accumulator.min, if_neg hpos.ne']
  exact h.least (mt h.count_eq_zero_iff.2 hpos.ne')

/-- The greatest number that is answered is one of the numbers and above all. -/
lemma Holds.isGreatest_max (h : a.Holds inputs) (hpos : 0 < a.count) :
    IsGreatest {x | x ∈ numbers inputs} a.max := by
  rw [Accumulator.max, if_neg hpos.ne']
  exact h.greatest (mt h.count_eq_zero_iff.2 hpos.ne')

/-- Nothing was counted. -/
lemma Holds.eq_zero (h : a.Holds inputs) (hzero : a.count = 0) :
    a.sum = 0 ∧ a.mean Nat.cast = 0 ∧ a.min = 0 ∧ a.max = 0 := by
  refine ⟨?_, if_pos hzero, if_pos hzero, if_pos hzero⟩
  rw [h.sum_eq, h.count_eq_zero_iff.1 hzero, List.sum_nil]

/-- Two accumulators that describe the same inputs give the same answers. -/
lemma Holds.answers_eq (h : a.Holds inputs) (h' : b.Holds inputs) :
    a.count = b.count ∧ a.sum = b.sum ∧ a.conditionCount = b.conditionCount ∧ a.min = b.min ∧
      a.max = b.max := by
  have hcount : a.count = b.count := h.count_eq.trans h'.count_eq.symm
  refine ⟨hcount, h.sum_eq.trans h'.sum_eq.symm, h.conditionCount_eq.trans h'.conditionCount_eq.symm, ?_⟩
  rcases Nat.eq_zero_or_pos a.count with hzero | hpos
  · obtain ⟨-, -, hmin, hmax⟩ := h.eq_zero hzero
    obtain ⟨-, -, hmin', hmax'⟩ := h'.eq_zero (hcount.symm.trans hzero)
    exact ⟨hmin.trans hmin'.symm, hmax.trans hmax'.symm⟩
  · have hpos' : 0 < b.count := hcount ▸ hpos
    exact ⟨(h.isLeast_min hpos).unique (h'.isLeast_min hpos'),
      (h.isGreatest_max hpos).unique (h'.isGreatest_max hpos')⟩

/-- The mean lies between the least and the greatest number. -/
lemma Holds.mean_mem_Icc [IsStrictOrderedRing K] (h : a.Holds inputs) (hpos : 0 < a.count) :
    a.min ≤ a.mean Nat.cast ∧ a.mean Nat.cast ≤ a.max := by
  have hcount : (0 : K) < a.count := Nat.cast_pos.2 hpos
  have hlow : (numbers inputs).length • a.min ≤ (numbers inputs).sum :=
    List.card_nsmul_le_sum _ _ fun x hx => (h.isLeast_min hpos).2 hx
  have hhigh : (numbers inputs).sum ≤ (numbers inputs).length • a.max :=
    List.sum_le_card_nsmul _ _ fun x hx => (h.isGreatest_max hpos).2 hx
  rw [← h.count_eq, ← h.sum_eq, nsmul_eq_mul, mul_comm] at hlow hhigh
  rw [mean, if_neg hpos.ne']
  exact ⟨(le_div_iff₀ hcount).2 hlow, (div_le_iff₀ hcount).2 hhigh⟩

end Ordered

end Accumulator

/-! ### Gatherings -/

/-- How an accumulator comes about: it is fresh, it takes an input, or it takes over another accumulator. -/
inductive Gathering (α : Type) where
  | fresh
  | fed (gathering : Gathering α) (input : Input α)
  | merged (gathering other : Gathering α)

namespace Gathering

/-- The accumulator that comes about. -/
def accumulator {α : Type} [Zero α] [Add α] [LT α] [DecidableLT α] : Gathering α → Accumulator α
  | fresh => .empty
  | fed gathering input => gathering.accumulator.take input
  | merged gathering other => gathering.accumulator.merge other.accumulator

/-- All inputs that are fed on the way. -/
def inputs {α : Type} : Gathering α → List (Input α)
  | fresh => []
  | fed gathering input => gathering.inputs ++ [input]
  | merged gathering other => gathering.inputs ++ other.inputs

/-- An accumulator describes what was fed, however it came about. -/
theorem holds {K : Type} [Field K] [LinearOrder K] (gathering : Gathering K) :
    gathering.accumulator.Holds gathering.inputs := by
  induction gathering with
  | fresh => exact Accumulator.holds_empty
  | fed gathering input ih => exact ih.take input
  | merged gathering other ih ih' => exact ih.merge ih'

/-- Inputs that are dealt out to accumulators, which are merged in any order and any tree, give the answers of one
accumulator that is fed all of them. The least and the greatest number are those among the inputs, the mean lies
between them, and without a number everything is zero. Inputs are taken as `update` takes doubles: those that are
not finite are left out. -/
theorem accumulator_of_perm (gathering : Gathering ℚ) (sequence : List (Input ℚ))
    (hdealt : gathering.inputs.Perm sequence) :
    let a := gathering.accumulator
    let single := sequence.foldl Accumulator.take Accumulator.empty
    let numbers := Input.numbers sequence
    (a.count = single.count ∧ a.sum = single.sum ∧ a.conditionCount = single.conditionCount ∧
      a.min = single.min ∧ a.max = single.max) ∧
    (a.count = numbers.length ∧ a.sum = numbers.sum ∧ a.conditionCount = sequence.countP Input.isMatch) ∧
    (0 < a.count → IsLeast {x | x ∈ numbers} a.min ∧ IsGreatest {x | x ∈ numbers} a.max ∧
      a.min ≤ a.mean Nat.cast ∧ a.mean Nat.cast ≤ a.max) ∧
    (a.count = 0 → a.sum = 0 ∧ a.mean Nat.cast = 0 ∧ a.min = 0 ∧ a.max = 0) ∧
    ∀ (b : Accumulator Float) (x : Float),
      b.update x = b.take (.number (if Numeric.isFinite x then some x else none)) := by
  intro a single numbers
  have ha : a.Holds sequence := gathering.holds.perm hdealt
  have hsingle : single.Holds sequence := Accumulator.holds_empty.foldl_take sequence
  refine ⟨ha.answers_eq hsingle, ⟨ha.count_eq, ha.sum_eq, ha.conditionCount_eq⟩, ?_, ha.eq_zero,
    Accumulator.update_eq_take⟩
  intro hpos
  exact ⟨ha.isLeast_min hpos, ha.isGreatest_max hpos, ha.mean_mem_Icc hpos⟩

/-- Three numbers and a match are dealt out to two accumulators. The first of them is merged into a fresh one, the
second into that. -/
theorem accumulator_of_three :
    let dealt : Gathering ℚ :=
      merged (merged fresh (fed (fed fresh (.number (some 9))) .conditionMet))
        (fed (fed fresh (.number (some (-1)))) (.number (some 4)))
    let sequence : List (Input ℚ) :=
      [.number (some 9), .number (some (-1)), .conditionMet, .number none, .number (some 4)]
    (fed dealt (.number none)).inputs.Perm sequence ∧
      (fed dealt (.number none)).accumulator.min =
        (sequence.foldl Accumulator.take Accumulator.empty).min ∧
      (fed dealt (.number none)).accumulator.sum = 12 ∧
      (fed dealt (.number none)).accumulator.conditionCount = 1 := by
  intro dealt sequence
  have hdealt : (fed dealt (.number none)).inputs.Perm sequence :=
    .cons _ (.trans (.swap _ _ _) (.cons _ (.cons _ (.swap _ _ _))))
  obtain ⟨⟨-, -, -, hmin, -⟩, ⟨-, hsum, hmatches⟩, -⟩ := accumulator_of_perm _ sequence hdealt
  refine ⟨hdealt, hmin, hsum.trans ?_, hmatches⟩
  norm_num [sequence, Input.numbers, Input.number?, List.filterMap_cons]

end Gathering

end EntityDump
