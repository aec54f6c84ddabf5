import EntityDump.Proofs.Filter.NumberCondition
import EntityDump.Proofs.Numeric.NearestDouble
/-!
# Comparing whole numbers

Filters compare whole numbers through their doubles, so as the numbers rounded to 53 bits (`equal_int`,
`order?_int`). If one of the two numbers has at most 53 bits, this is the comparison of the numbers themselves
(`compare_nearest`). Greater numbers are never ordered the wrong way around, but different ones may be taken
for equal (`not_compares_by_value`).
-/

namespace EntityDump.Compare

open Numeric (nearest nearest_mono nearest_of_natAbs_le)

variable {a b : Int}

/-! ### Rounded numbers -/

/-- Rounding keeps the order of two numbers of which one has at most 53 bits. -/
lemma nearest_lt_nearest (h : a.natAbs < 2 ^ 53 ∨ b.natAbs < 2 ^ 53) (hlt : a < b) :
    nearest a < nearest b := by
  rcases h with h | h
  · have hexact : nearest a = a := nearest_of_natAbs_le h.le
    have hsucc : nearest (a + 1) = a + 1 := nearest_of_natAbs_le (by omega)
    have hle : nearest (a + 1) ≤ nearest b := nearest_mono hlt
    omega
  · have hexact : nearest b = b := nearest_of_natAbs_le h.le
    have hpred : nearest (b - 1) = b - 1 := nearest_of_natAbs_le (by omega)
    have hle : nearest a ≤ nearest (b - 1) := nearest_mono (by omega)
    omega

/-- Whole numbers keep their order when they are rounded, if one of them has no more than 53 bits. -/
lemma compare_nearest (h : a.natAbs < 2 ^ 53 ∨ b.natAbs < 2 ^ 53) :
    compare (nearest a) (nearest b) = compare a b := by
  rcases Int.lt_trichotomy a b with hlt | rfl | hgt
  · rw [Int.compare_eq_lt.2 hlt, Int.compare_eq_lt.2 (nearest_lt_nearest h hlt)]
  · rw [Int.compare_eq_eq.2 rfl, Int.compare_eq_eq.2 rfl]
  · rw [Int.compare_eq_gt.2 hgt, Int.compare_eq_gt.2 (nearest_lt_nearest h.symm hgt)]

/-! ### Comparing through doubles -/

/-- Whole numbers are equal if they are rounded to the same. -/
lemma equal_int (ha : a.natAbs < 2 ^ 64) (hb : b.natAbs < 2 ^ 64) :
    equal (.number (.int a)) (.number (.int b)) = decide (nearest a = nearest b) := by
  rw [Bool.eq_iff_iff, decide_eq_true_iff]
  exact Numeric.ofInt_beq_ofInt_iff ha hb

/-- A whole number of 64 bits counts as its double. -/
lemma asNumber?_int (ha : a.natAbs < 2 ^ 64) : asNumber? (.number (.int a)) = some (Float.ofInt a) := by
  have hfinite : Numeric.isFinite (Float.ofInt a) = true := Numeric.isFinite_ofInt ha
  show Option.filter Numeric.isFinite (some (Float.ofInt a)) = some (Float.ofInt a)
  rw [Option.filter_some, hfinite, if_pos rfl]

/-- Whole numbers are ordered as they are rounded. -/
lemma order?_int (ha : a.natAbs < 2 ^ 64) (hb : b.natAbs < 2 ^ 64) :
    order? (.number (.int a)) (.number (.int b)) = some (compare (nearest a) (nearest b)) := by
  have hlt := Numeric.ofInt_lt_ofInt_iff ha hb
  have hgt := Numeric.ofInt_lt_ofInt_iff hb ha
  have horder : floatOrder (Float.ofInt a) (Float.ofInt b) = compare (nearest a) (nearest b) := by
    rw [floatOrder]
    rcases Int.lt_trichotomy (nearest a) (nearest b) with h | h | h
    · rw [if_pos (hlt.2 h), Int.compare_eq_lt.2 h]
    · rw [if_neg (mt hlt.1 (by omega)), if_neg (mt hgt.1 (by omega)), Int.compare_eq_eq.2 h]
    · rw [if_neg (mt hlt.1 (by omega)), if_pos (hgt.2 h), Int.compare_eq_gt.2 h]
  rw [order?, asNumber?_int ha, asNumber?_int hb]
  dsimp only
  rw [horder]

/-- A filter on the field `id` asks whether the field and its number are rounded to the same. -/
lemma accepts_id_int (strict twoSided : Bool) {fields : List (String × Json)}
    (hfield : Json.Fields.find? "id" fields = some (.number (.int a))) (ha : a.natAbs < 2 ^ 64)
    (hlo : -2 ^ 63 ≤ b) (hhi : b < 2 ^ 63) :
    ∃ set, FilterSet.parse strict twoSided ["id" ++ " = " ++ toString b] = .ok set ∧
      set.accepts (.object fields) = decide (nearest a = nearest b) := by
  have hname : ∀ c ∈ "id".toList, c ∉ reserved ∧ Text.isBlank c = false := by
    intro c hc
    obtain rfl | rfl : c = 'i' ∨ c = 'd' := by simpa using hc
    · decide
    · decide
  have hside : (if twoSided then splitSide "id".toList else (.left, "id".toList)) = (.left, "id".toList) := by
    cases twoSided <;> rfl
  have hpath : Path.parse (String.ofList "id".toList) = .ok ⟨"id", [.key "id"]⟩ := by
    have htrim : Text.trim (String.ofList "id".toList).toList = ['i', 'd'] := by decide +kernel
    unfold Path.parse
    rw [htrim]
    simp [Path.scan, Path.Scanner.endKey]
  refine ⟨_, FilterSet.parse_equal_int strict hname (by decide) hside hpath hlo hhi, ?_⟩
  have hselect : Path.select ⟨"id", [.key "id"]⟩ (.object fields) = [.number (.int a)] := by
    simp [Path.select, Path.selectFrom, Segment.children, hfield]
  simp only [FilterSet.accepts, List.all_cons, List.all_nil, Bool.and_true, Condition.holds, hselect,
    List.any_cons, List.any_nil, Bool.or_false, Operator.holds]
  exact equal_int ha (by omega)

/-! ### What a comparison means -/

/-- Whole numbers of 64 bits are equal if they are the same after rounding to 53 bits, and ordered as the
rounded ones, which keep the order. The comparison is that of the numbers themselves if one of them has at most
53 bits. A filter `id = b` lets pass the objects whose field is a whole number that is rounded as `b` is. -/
theorem compares_rounded (ha : -2 ^ 63 ≤ a) (ha' : a < 2 ^ 64) (hb : -2 ^ 63 ≤ b) (hb' : b < 2 ^ 64) :
    equal (.number (.int a)) (.number (.int b)) = decide (nearest a = nearest b) ∧
    order? (.number (.int a)) (.number (.int b)) = some (compare (nearest a) (nearest b)) ∧
    (a ≤ b → nearest a ≤ nearest b) ∧
    (a.natAbs < 2 ^ 53 ∨ b.natAbs < 2 ^ 53 → compare (nearest a) (nearest b) = compare a b) ∧
    ∀ strict twoSided fields, b < 2 ^ 63 → Json.Fields.find? "id" fields = some (.number (.int a)) →
      ∃ set, FilterSet.parse strict twoSided ["id" ++ " = " ++ toString b] = .ok set ∧
        set.accepts (.object fields) = decide (nearest a = nearest b) :=
  ⟨equal_int (by omega) (by omega), order?_int (by omega) (by omega), nearest_mono, compare_nearest,
    fun strict twoSided _ hhi hfield => accepts_id_int strict twoSided hfield (by omega) hb hhi⟩

/-- Of small numbers the lesser one is less, and a filter for one does not let pass the other. -/
theorem compares_rounded_of_small :
    equal (.number (.int 41)) (.number (.int 42)) = false ∧
    order? (.number (.int 41)) (.number (.int 42)) = some .lt ∧
    ∃ set, FilterSet.parse true false ["id" ++ " = " ++ toString (42 : Int)] = .ok set ∧
      set.accepts (.object [("id", .number (.int 41))]) = false := by
  have hne : decide (nearest 41 = nearest 42) = false := by decide
  obtain ⟨hequal, horder, -, hexact, hfilter⟩ :=
    compares_rounded (a := 41) (b := 42) (by decide) (by decide) (by decide) (by decide)
  rw [hne] at hequal hfilter
  rw [hexact (.inl (by decide))] at horder
  exact ⟨hequal, horder, hfilter true false _ (by decide) rfl⟩

/-- Two numbers one after the other are equal in either comparison, and a filter for one lets pass the
other. -/
theorem not_compares_by_value :
    (¬ ∀ a b : Int, -2 ^ 63 ≤ a → a < 2 ^ 64 → -2 ^ 63 ≤ b → b < 2 ^ 64 →
      (equal (.number (.int a)) (.number (.int b)) = true ↔ a = b)) ∧
    (¬ ∀ a b : Int, -2 ^ 63 ≤ a → a < 2 ^ 64 → -2 ^ 63 ≤ b → b < 2 ^ 64 →
      order? (.number (.int a)) (.number (.int b)) = some (compare a b)) ∧
    ¬ ∀ (a b : Int) (fields : List (String × Json)) (set : FilterSet),
      -2 ^ 63 ≤ a → a < 2 ^ 64 → -2 ^ 63 ≤ b → b < 2 ^ 63 →
      Json.Fields.find? "id" fields = some (.number (.int a)) →
      FilterSet.parse true false ["id" ++ " = " ++ toString b] = .ok set →
      set.accepts (.object fields) = true → a = b := by
  have hne : (2 ^ 53 : Int) ≠ 2 ^ 53 + 1 := by decide
  have hnearest : nearest (2 ^ 53) = nearest (2 ^ 53 + 1) := by decide
  refine ⟨fun h => ?_, fun h => ?_, fun h => ?_⟩
  · have hequal := equal_int (a := 2 ^ 53) (b := 2 ^ 53 + 1) (by decide) (by decide)
    rw [decide_eq_true hnearest] at hequal
    exact hne ((h _ _ (by decide) (by decide) (by decide) (by decide)).1 hequal)
  · have horder := order?_int (a := 2 ^ 53) (b := 2 ^ 53 + 1) (by decide) (by decide)
    rw [hnearest, Int.compare_eq_eq.2 rfl, h _ _ (by decide) (by decide) (by decide) (by decide)] at horder
    exact hne (Int.compare_eq_eq.1 (Option.some.inj horder))
  · have hfield : Json.Fields.find? "id" [("id", Json.number (.int (2 ^ 53)))] =
        some (Json.number (.int (2 ^ 53))) := rfl
    obtain ⟨set, hparse, haccepts⟩ :=
      accepts_id_int (b := 2 ^ 53 + 1) true false hfield (by decide) (by decide) (by decide)
    rw [decide_eq_true hnearest] at haccepts
    exact hne (h _ _ _ set (by decide) (by decide) (by decide) (by decide) hfield hparse haccepts)

end EntityDump.Compare
