import EntityDump.Proofs.Numeric.NearestDouble
import EntityDump.Proofs.Relationship.Inventory
import EntityDump.Relationship.Inference
import Mathlib
/-!
# The list of relationships

Two fields are listed exactly if they share a value and the coverage is not below the least one
(`Relationship.between?_eq_some_iff`). No two entries have the same paths, since the paths of an inventory ascend, and
all coverages are numbers. So the list is in a strict order (`Relationship.Before`), which leaves one way to list the
same entries (`Relationship.eq_of_perm`). In particular a greater least coverage drops the entries below it, and
keeps the others as they stand (`inferRelationships_filter`).

The main result is `inferRelationships_exact`.
-/

namespace EntityDump

/-! ### Distinct values -/

namespace IdField

variable {field other : IdField} {value : String}

/-- The distinct values of a field. -/
def valueSet (field : IdField) : Finset String :=
  field.values.toList.toFinset

lemma mem_valueSet : value ∈ field.valueSet ↔ value ∈ field.values := by
  rw [valueSet, List.mem_toFinset, Std.TreeSet.mem_toList]

/-- The set of values is as large as there are distinct ones. -/
lemma card_valueSet (field : IdField) : field.valueSet.card = field.distinctValues := by
  rw [valueSet, List.toFinset_card_of_nodup field.nodup_values, Std.TreeSet.length_toList]
  rfl

/-- The shared values are counted as those in both sets. -/
lemma card_inter_valueSet (field other : IdField) :
    (field.valueSet ∩ other.valueSet).card = field.sharedValues other := by
  have hinter : field.valueSet ∩ other.valueSet =
      (field.values.toList.filter fun value => other.values.contains value).toFinset := by
    ext value
    rw [Finset.mem_inter, mem_valueSet, mem_valueSet, List.mem_toFinset, List.mem_filter,
      Std.TreeSet.mem_toList, Std.TreeSet.contains_iff_mem]
  rw [hinter, List.toFinset_card_of_nodup (field.nodup_values.filter _), sharedValues,
    List.countP_eq_length_filter]

/-- Values are shared if some value stands in both fields. -/
lemma sharedValues_ne_zero_iff : field.sharedValues other ≠ 0 ↔ ∃ value ∈ field.values, value ∈ other.values := by
  rw [← card_inter_valueSet, Finset.card_ne_zero]
  simp only [Finset.Nonempty, Finset.mem_inter, mem_valueSet]

/-- A field that shares values has some. -/
lemma sharedValues_le (field other : IdField) : field.sharedValues other ≤ field.distinctValues := by
  rw [← card_inter_valueSet, ← card_valueSet]
  exact Finset.card_le_card Finset.inter_subset_left

end IdField

namespace Relationship

variable {a b rel : Relationship} {l r : IdField} {minCoverage minCoverage' : Float} {sameSource : Bool}
  {lefts rights : List IdField}

/-! ### Two fields -/

/-- The paths of a relationship. -/
def paths (rel : Relationship) : String × String :=
  (rel.leftPath, rel.rightPath)

/-- The relationship of two fields, if they are related. -/
def ofFields (l r : IdField) : Relationship :=
  let matched := (l.valueSet ∩ r.valueSet).card
  let total := l.valueSet.card
  ⟨l.path, r.path, .between l r, matched, total, percentage matched total⟩

/-- Two fields are related if they share a value and the coverage is not below the least one. -/
lemma between?_eq_some_iff : between? minCoverage l r = some rel ↔
    rel = ofFields l r ∧ (∃ value ∈ l.values, value ∈ r.values) ∧ ¬ rel.coverage < minCoverage := by
  have hbetween : between? minCoverage l r =
      if l.sharedValues r = 0 then none
      else if (ofFields l r).coverage < minCoverage then none
      else some (ofFields l r) := by
    unfold between? ofFields
    rw [IdField.card_inter_valueSet, IdField.card_valueSet]
  rw [hbetween, ← IdField.sharedValues_ne_zero_iff, Option.ite_none_left_eq_some,
    Option.ite_none_left_eq_some]
  constructor
  · rintro ⟨hshared, hcoverage, hrel⟩
    obtain rfl := Option.some.inj hrel
    exact ⟨rfl, hshared, hcoverage⟩
  · rintro ⟨rfl, hshared, hcoverage⟩
    exact ⟨hshared, hcoverage, rfl⟩

/-- A percentage of a count that fits in 64 bits, and is not zero, is a number. -/
lemma isNaN_percentage (count : ℕ) {total : ℕ} (hpos : 0 < total) (hlt : total < 2 ^ 64) :
    (percentage count total).isNaN = false := by
  obtain ⟨sign, mantissa, exponent, hmantissa, hparts⟩ := Numeric.exists_finite_ofNat hpos hlt
  have hquotient : (Float.ofNat count / Float.ofNat total).isNaN = false := by
    apply Numeric.isNaN_pack
    rw [hparts]
    exact Numeric.div_ne_notANumber (Numeric.unpack_ne_notANumber (Numeric.isNaN_ofNat count)) sign mantissa exponent
      hmantissa
  have hhundred : (100.0 : Float).toModel.unpack = .finite .positive (25 * 2 ^ 48) (-46) (by decide) := by
    rfl
  apply Numeric.isNaN_pack
  rw [hhundred]
  exact Numeric.mul_ne_notANumber (Numeric.unpack_ne_notANumber hquotient) _ _ _ _

/-- A greater least coverage keeps a relationship unless the coverage is below it. -/
lemma between?_filter (h : minCoverage ≤ minCoverage') (l r : IdField) :
    between? minCoverage' l r = (between? minCoverage l r).filter fun rel => !(rel.coverage < minCoverage') := by
  apply Option.ext
  intro rel
  rw [Option.filter_eq_some_iff, between?_eq_some_iff, between?_eq_some_iff]
  have hcoverage : ¬ rel.coverage < minCoverage' → ¬ rel.coverage < minCoverage :=
    mt fun hlt => Numeric.lt_of_lt_of_le hlt h
  simp only [Bool.not_eq_true', decide_eq_false_iff_not]
  tauto

/-! ### All pairs of fields -/

/-- The relationships of left fields to right fields, as two nested loops find them. -/
def among (minCoverage : Float) (sameSource : Bool) (lefts rights : List IdField) : List Relationship :=
  lefts.flatMap fun l => rights.filterMap fun r =>
    if sameSource && l.path == r.path then none else between? minCoverage l r

/-- A relationship is listed if two fields have it that are not the same field of one source. -/
lemma mem_among_iff : rel ∈ among minCoverage sameSource lefts rights ↔
    ∃ l ∈ lefts, ∃ r ∈ rights, ¬ (sameSource = true ∧ l.path = r.path) ∧ between? minCoverage l r = some rel := by
  simp only [among, List.mem_flatMap, List.mem_filterMap, Option.ite_none_left_eq_some, Bool.and_eq_true,
    beq_iff_eq]

/-- Every order of the fields finds the same relationships. -/
lemma among_perm {lefts' rights' : List IdField} (hlefts : lefts.Perm lefts') (hrights : rights.Perm rights') :
    (among minCoverage sameSource lefts rights).Perm (among minCoverage sameSource lefts' rights') :=
  List.Perm.flatMap hlefts fun _ _ => hrights.filterMap _

/-- A greater least coverage drops the relationships below it. -/
lemma among_filter (h : minCoverage ≤ minCoverage') (sameSource : Bool) (lefts rights : List IdField) :
    among minCoverage' sameSource lefts rights =
      (among minCoverage sameSource lefts rights).filter fun rel => !(rel.coverage < minCoverage') := by
  unfold among
  rw [List.filter_flatMap]
  congr 1
  funext l
  rw [List.filter_filterMap]
  congr 1
  funext r
  split
  · rfl
  · exact between?_filter h l r

/-- Fields of different paths are related at most once. -/
lemma nodup_paths_among (hlefts : (lefts.map IdField.path).Nodup) (hrights : (rights.map IdField.path).Nodup) :
    ((among minCoverage sameSource lefts rights).map paths).Nodup := by
  have hpaths : ∀ {l r rel}, (if sameSource && l.path == r.path then none else between? minCoverage l r) =
      some rel → rel.paths = (l.path, r.path) := by
    intro l r rel hrel
    obtain ⟨rfl, -⟩ := between?_eq_some_iff.1 (Option.ite_none_left_eq_some.1 hrel).2
    rfl
  rw [List.Nodup, List.pairwise_map] at hlefts hrights ⊢
  rw [among, List.pairwise_flatMap]
  constructor
  · intro l _
    rw [List.pairwise_filterMap]
    apply hrights.imp
    intro r r' hne rel hrel rel' hrel' heq
    rw [hpaths hrel, hpaths hrel'] at heq
    exact hne (Prod.mk.inj heq).2
  · apply hlefts.imp
    intro l l' hne rel hrel rel' hrel' heq
    obtain ⟨r, -, hrel⟩ := List.mem_filterMap.1 hrel
    obtain ⟨r', -, hrel'⟩ := List.mem_filterMap.1 hrel'
    rw [hpaths hrel, hpaths hrel'] at heq
    exact hne (Prod.mk.inj heq).1

/-- The coverages that are found are numbers, if the left fields have fewer values than 64 bits can count. -/
lemma isNaN_coverage (hsize : ∀ field ∈ lefts, field.distinctValues < 2 ^ 64)
    (hrel : rel ∈ among minCoverage sameSource lefts rights) : rel.coverage.isNaN = false := by
  obtain ⟨l, hl, r, -, -, hbetween⟩ := mem_among_iff.1 hrel
  obtain ⟨rfl, hshared, -⟩ := between?_eq_some_iff.1 hbetween
  have hpos : 0 < l.distinctValues :=
    (Nat.pos_of_ne_zero (IdField.sharedValues_ne_zero_iff.2 hshared)).trans_le (l.sharedValues_le r)
  rw [← IdField.card_valueSet] at hpos
  exact isNaN_percentage _ hpos (l.card_valueSet.trans_lt (hsize l hl))

/-! ### The order of the list -/

/-- One relationship is listed before another: by descending coverage, then descending number of matches, then
ascending left path, then ascending right path. -/
def Before (a b : Relationship) : Prop :=
  b.coverage < a.coverage ∨ a.coverage == b.coverage ∧
    (b.matchedCount < a.matchedCount ∨ a.matchedCount = b.matchedCount ∧
      (a.leftPath < b.leftPath ∨ a.leftPath = b.leftPath ∧ a.rightPath < b.rightPath))

/-- The place of a relationship among all those of which the coverage is a number. -/
def place (rel : Relationship) : (ℤ ×ₗ ℤ ×ₗ ℤ)ᵒᵈ ×ₗ ℕᵒᵈ ×ₗ String ×ₗ String :=
  toLex (OrderDual.toDual (Numeric.rank rel.coverage),
    toLex (OrderDual.toDual rel.matchedCount, toLex (rel.leftPath, rel.rightPath)))

/-- A relationship comes before another exactly if its place is the lower. -/
lemma before_iff_place_lt (ha : a.coverage.isNaN = false) (hb : b.coverage.isNaN = false) :
    a.Before b ↔ a.place < b.place := by
  rw [Before, Numeric.lt_iff_rank_lt hb ha, Numeric.beq_iff_rank_eq ha hb]
  simp only [place, Prod.Lex.toLex_lt_toLex, OrderDual.toDual_lt_toDual, OrderDual.toDual_inj]

/-- The comparison of two relationships is that of their places. -/
lemma precedes_eq (ha : a.coverage.isNaN = false) (hb : b.coverage.isNaN = false) :
    a.precedes b = decide (a.place ≤ b.place) := by
  have hab := Numeric.lt_iff_rank_lt ha hb
  have hba := Numeric.lt_iff_rank_lt hb ha
  rw [Bool.eq_iff_iff, decide_eq_true_iff]
  simp only [place, Prod.Lex.toLex_le_toLex, OrderDual.toDual_lt_toDual, OrderDual.toDual_inj]
  unfold precedes
  -- One part after the other decides, unless it is equal on both sides.
  split
  · next hlt => simp only [hba.1 hlt, true_or]
  · next hnlt =>
    split
    · next hlt =>
      have hrank := hab.1 hlt
      simp only [Bool.false_eq_true, false_iff, not_or, not_and]
      exact ⟨hrank.asymm, fun heq => absurd heq hrank.ne⟩
    · next hngt =>
      have hrank : Numeric.rank a.coverage = Numeric.rank b.coverage :=
        le_antisymm (not_lt.1 (mt hba.2 hnlt)) (not_lt.1 (mt hab.2 hngt))
      rw [hrank]
      simp only [lt_self_iff_false, true_and, false_or]
      split
      · next hne => simp [hne]
      · next hmatched =>
        rw [not_not.1 hmatched]
        simp only [lt_self_iff_false, true_and, false_or]
        split
        · next hne => simp [hne]
        · next hleft =>
          rw [not_not.1 hleft]
          simp

section Sorted

variable {list list' : List Relationship}

/-- Sorting arranges relationships by their places. -/
lemma pairwise_place_mergeSort (hnumber : ∀ rel ∈ list, rel.coverage.isNaN = false) :
    (list.mergeSort precedes).Pairwise fun a b => a.place ≤ b.place := by
  have hsort : list.mergeSort precedes = list.mergeSort fun a b => decide (a.place ≤ b.place) := by
    have hmap := List.map_mergeSort (r := precedes) (s := fun a b => decide (a.place ≤ b.place)) (f := id)
      (l := list) fun a ha b hb => precedes_eq (hnumber a ha) (hnumber b hb)
    rwa [List.map_id, List.map_id] at hmap
  have hsorted : (list.mergeSort fun a b => decide (a.place ≤ b.place)).Pairwise fun a b =>
      decide (a.place ≤ b.place) = true := by
    apply List.pairwise_mergeSort
    · intro a b c hab hbc
      exact decide_eq_true ((of_decide_eq_true hab).trans (of_decide_eq_true hbc))
    · intro a b
      rw [← Bool.decide_or]
      exact decide_eq_true (le_total _ _)
  rw [hsort]
  exact hsorted.imp of_decide_eq_true

/-- Relationships of different paths are listed in a strict order. -/
theorem pairwise_before_mergeSort (hnumber : ∀ rel ∈ list, rel.coverage.isNaN = false)
    (hnodup : (list.map paths).Nodup) : (list.mergeSort precedes).Pairwise Before := by
  have hperm := list.mergeSort_perm precedes
  have hne : (list.mergeSort precedes).Pairwise fun a b => a.paths ≠ b.paths := by
    rw [← List.pairwise_map (R := Ne)]
    exact (hperm.map paths).nodup_iff.2 hnodup
  apply ((pairwise_place_mergeSort hnumber).and hne).imp_of_mem
  intro a b ha hb ⟨hle, hpaths⟩
  rw [before_iff_place_lt (hnumber a (hperm.mem_iff.1 ha)) (hnumber b (hperm.mem_iff.1 hb))]
  apply hle.lt_of_ne
  intro heq
  exact hpaths (congrArg (fun place => (ofLex (ofLex (ofLex place).2).2)) heq)

/-- Relationships are listed in a strict order in one way only. -/
theorem eq_of_perm (hnumber : ∀ rel ∈ list, rel.coverage.isNaN = false) (hperm : list.Perm list')
    (h : list.Pairwise Before) (h' : list'.Pairwise Before) : list = list' := by
  apply hperm.eq_of_pairwise _ h h'
  intro a b ha hb hab hba
  have hna := hnumber a ha
  have hnb := hnumber b (hperm.mem_iff.2 hb)
  exact absurd ((before_iff_place_lt hna hnb).1 hab) ((before_iff_place_lt hnb hna).1 hba).asymm

end Sorted

end Relationship

/-! ### The relationships of elements -/

section Elements

open Relationship

variable {lefts rights : List Json} {minCoverage minCoverage' : Float} {sameSource : Bool} {rel : Relationship}

/-- The fields of elements have different paths. -/
lemma Inventory.nodup_path_fields (elements : List Json) :
    ((ofElements elements).fields.map IdField.path).Nodup :=
  (pairwise_path_fields elements).imp ne_of_lt

/-- The fields that are related are listed. -/
lemma mem_inferRelationships_iff :
    rel ∈ inferRelationships (.ofElements lefts) (.ofElements rights) minCoverage sameSource ↔
      ¬ (sameSource = true ∧ rel.leftPath = rel.rightPath) ∧ ∃ l r,
        (Inventory.ofElements lefts).get? rel.leftPath = some l ∧
        (Inventory.ofElements rights).get? rel.rightPath = some r ∧
        rel = ofFields l r ∧ (∃ value ∈ l.values, value ∈ r.values) ∧ ¬ rel.coverage < minCoverage := by
  have hfound : rel ∈ inferRelationships (.ofElements lefts) (.ofElements rights) minCoverage sameSource ↔
      rel ∈ among minCoverage sameSource (Inventory.ofElements lefts).fields
        (Inventory.ofElements rights).fields :=
    (List.mergeSort_perm _ _).mem_iff
  rw [hfound, mem_among_iff]
  simp only [between?_eq_some_iff]
  constructor
  · rintro ⟨l, hl, r, hr, hdiffer, rfl, hrelated⟩
    exact ⟨hdiffer, l, r, Inventory.get?_path_of_mem_fields hl, Inventory.get?_path_of_mem_fields hr, rfl,
      hrelated⟩
  · rintro ⟨hdiffer, l, r, hl, hr, rfl, hrelated⟩
    exact ⟨l, Inventory.mem_fields_iff.2 ⟨_, hl⟩, r, Inventory.mem_fields_iff.2 ⟨_, hr⟩, hdiffer, rfl, hrelated⟩

/-- Each pair of paths is listed at most once. -/
lemma nodup_paths_inferRelationships (lefts rights : List Json) (minCoverage : Float) (sameSource : Bool) :
    ((inferRelationships (.ofElements lefts) (.ofElements rights) minCoverage sameSource).map paths).Nodup :=
  ((List.mergeSort_perm _ _).map paths).nodup_iff.2
    (nodup_paths_among (Inventory.nodup_path_fields lefts) (Inventory.nodup_path_fields rights))

section Order

variable (hsize : ∀ field ∈ (Inventory.ofElements lefts).fields, field.distinctValues < 2 ^ 64)

include hsize

/-- The coverage of a relationship is a number. -/
lemma isNaN_of_mem_inferRelationships
    (hrel : rel ∈ inferRelationships (.ofElements lefts) (.ofElements rights) minCoverage sameSource) :
    rel.coverage.isNaN = false :=
  isNaN_coverage hsize ((List.mergeSort_perm _ _).mem_iff.1 hrel)

/-- Relationships are listed in strict order. -/
theorem pairwise_before_inferRelationships (rights : List Json) (minCoverage : Float) (sameSource : Bool) :
    (inferRelationships (.ofElements lefts) (.ofElements rights) minCoverage sameSource).Pairwise Before :=
  pairwise_before_mergeSort (fun _ hrel => isNaN_coverage hsize hrel)
    (nodup_paths_among (Inventory.nodup_path_fields lefts) (Inventory.nodup_path_fields rights))

/-- Whatever the order of the fields, sorting what is found gives the list. -/
theorem mergeSort_among_eq {ls rs : List IdField} (hls : ls.Perm (Inventory.ofElements lefts).fields)
    (hrs : rs.Perm (Inventory.ofElements rights).fields) (minCoverage : Float) (sameSource : Bool) :
    (among minCoverage sameSource ls rs).mergeSort precedes =
      inferRelationships (.ofElements lefts) (.ofElements rights) minCoverage sameSource := by
  have hnumber : ∀ rel ∈ among minCoverage sameSource ls rs, rel.coverage.isNaN = false := by
    intro rel hrel
    exact isNaN_coverage hsize ((among_perm hls hrs).mem_iff.1 hrel)
  have hnodup : ((among minCoverage sameSource ls rs).map paths).Nodup := by
    apply nodup_paths_among
    · exact (hls.map _).nodup_iff.2 (Inventory.nodup_path_fields lefts)
    · exact (hrs.map _).nodup_iff.2 (Inventory.nodup_path_fields rights)
  have hperm := (List.mergeSort_perm (among minCoverage sameSource ls rs) precedes).trans
    ((among_perm hls hrs).trans (List.mergeSort_perm _ precedes).symm)
  apply eq_of_perm _ hperm (pairwise_before_mergeSort hnumber hnodup)
  · exact pairwise_before_inferRelationships hsize rights minCoverage sameSource
  · intro rel hrel
    exact hnumber rel ((List.mergeSort_perm _ _).mem_iff.1 hrel)

/-- A greater least coverage drops the relationships below it from the list. -/
theorem inferRelationships_filter (rights : List Json) (hle : minCoverage ≤ minCoverage') (sameSource : Bool) :
    inferRelationships (.ofElements lefts) (.ofElements rights) minCoverage' sameSource =
      (inferRelationships (.ofElements lefts) (.ofElements rights) minCoverage sameSource).filter fun rel =>
        !(rel.coverage < minCoverage') := by
  have hperm : (inferRelationships (.ofElements lefts) (.ofElements rights) minCoverage' sameSource).Perm
      ((inferRelationships (.ofElements lefts) (.ofElements rights) minCoverage sameSource).filter fun rel =>
        !(rel.coverage < minCoverage')) := by
    apply (List.mergeSort_perm _ precedes).trans
    rw [← among, among_filter hle]
    exact (List.mergeSort_perm _ precedes).symm.filter _
  apply eq_of_perm (fun rel => isNaN_of_mem_inferRelationships hsize) hperm
  · exact pairwise_before_inferRelationships hsize rights minCoverage' sameSource
  · exact (pairwise_before_inferRelationships hsize rights minCoverage sameSource).filter _

end Order

/-- Of the pairs of a left and a right field, except those of equal paths within one source, each is listed exactly
once if the fields share a value and the share of the left values that the right field has too, in percent, is not
below the least coverage; the others are not listed. An entry tells how many values there are and are shared. The list
is in a strict order, the same for every order of the fields, and a greater least coverage drops the entries
below it. The values of a field can be counted in 64 bits, so that no coverage is not-a-number. -/
theorem inferRelationships_exact (lefts rights : List Json) (minCoverage : Float) (sameSource : Bool)
    (hsize : ∀ field ∈ (Inventory.ofElements lefts).fields, field.distinctValues < 2 ^ 64) :
    let left := Inventory.ofElements lefts
    let right := Inventory.ofElements rights
    let list := inferRelationships left right minCoverage sameSource
    (∀ p q, (p, q) ∈ list.map paths ↔ ¬ (sameSource = true ∧ p = q) ∧ ∃ l r,
      left.get? p = some l ∧ right.get? q = some r ∧ (∃ value ∈ l.values, value ∈ r.values) ∧
        ¬ percentage (l.valueSet ∩ r.valueSet).card l.valueSet.card < minCoverage) ∧
    (list.map paths).Nodup ∧
    (∀ rel ∈ list, ∃ l r, left.get? rel.leftPath = some l ∧ right.get? rel.rightPath = some r ∧
      rel.matchedCount = (l.valueSet ∩ r.valueSet).card ∧ rel.totalCount = l.valueSet.card ∧
      rel.coverage = percentage rel.matchedCount rel.totalCount ∧ rel.cardinality = .between l r) ∧
    list.Pairwise Before ∧
    (∀ ls rs : List IdField, ls.Perm left.fields → rs.Perm right.fields →
      (among minCoverage sameSource ls rs).mergeSort precedes = list) ∧
    ∀ minCoverage', minCoverage ≤ minCoverage' →
      inferRelationships left right minCoverage' sameSource =
        list.filter fun rel => !(rel.coverage < minCoverage') := by
  intro left right list
  refine ⟨?_, nodup_paths_inferRelationships lefts rights minCoverage sameSource, ?_,
    pairwise_before_inferRelationships hsize rights minCoverage sameSource, ?_, ?_⟩
  · intro p q
    constructor
    · intro hpaths
      obtain ⟨rel, hrel, hpaths⟩ := List.mem_map.1 hpaths
      obtain ⟨rfl, rfl⟩ := Prod.mk.inj hpaths
      obtain ⟨hdiffer, l, r, hl, hr, rfl, hrelated⟩ := mem_inferRelationships_iff.1 hrel
      exact ⟨hdiffer, l, r, hl, hr, hrelated⟩
    · rintro ⟨hdiffer, l, r, hl, hr, hrelated⟩
      obtain rfl : l.path = p := (Inventory.holds_ofElements lefts).path_eq p l hl
      obtain rfl : r.path = q := (Inventory.holds_ofElements rights).path_eq q r hr
      apply List.mem_map_of_mem (f := paths) (a := ofFields l r)
      exact mem_inferRelationships_iff.2 ⟨hdiffer, l, r, hl, hr, rfl, hrelated⟩
  · intro rel hrel
    obtain ⟨-, l, r, hl, hr, rfl, -⟩ := mem_inferRelationships_iff.1 hrel
    exact ⟨l, r, hl, hr, rfl, rfl, rfl, rfl⟩
  · intro ls rs hls hrs
    exact mergeSort_among_eq hsize hls hrs minCoverage sameSource
  · intro minCoverage' hle
    exact inferRelationships_filter hsize rights hle sameSource

/-- Of two values on the left one is found on the right, which is a half of them. -/
theorem inferRelationships_exact_of_half :
    ∃ rel ∈ inferRelationships (.ofElements [.object [("id", .string "a")], .object [("id", .string "b")]])
        (.ofElements [.object [("Id", .string "b")]]) 30.0 false,
      rel.paths = ("id", "Id") ∧ rel.matchedCount = 1 ∧ rel.totalCount = 2 ∧ rel.coverage = 50.0 := by
  let lefts : List Json := [.object [("id", .string "a")], .object [("id", .string "b")]]
  let rights : List Json := [.object [("Id", .string "b")]]
  have hsize : ∀ field ∈ (Inventory.ofElements lefts).fields, field.distinctValues < 2 ^ 64 := by decide +kernel
  obtain ⟨hlisted, -, hnumbers, -⟩ := inferRelationships_exact lefts rights 30.0 false hsize
  have hfields : ((Inventory.ofElements lefts).get? "id").any fun l =>
      ((Inventory.ofElements rights).get? "Id").any fun r =>
        decide ((l.valueSet ∩ r.valueSet).card = 1 ∧ l.valueSet.card = 2) := by decide +kernel
  have hcoverage : ¬ percentage 1 2 < 30.0 := by decide +kernel
  obtain ⟨l, hl, hfields⟩ := (Option.any_eq_true _ _).1 hfields
  obtain ⟨r, hr, hfields⟩ := (Option.any_eq_true _ _).1 hfields
  obtain ⟨hmatched, htotal⟩ := of_decide_eq_true hfields
  have hshared : ∃ value ∈ l.values, value ∈ r.values := by
    rw [← IdField.sharedValues_ne_zero_iff, ← IdField.card_inter_valueSet, hmatched]
    exact one_ne_zero
  obtain ⟨rel, hrel, hpaths⟩ := List.mem_map.1 ((hlisted "id" "Id").2
    ⟨by decide, l, r, hl, hr, hshared, by rwa [hmatched, htotal]⟩)
  obtain ⟨hleft, hright⟩ := Prod.mk.inj hpaths
  obtain ⟨l', r', hl', hr', hrelMatched, hrelTotal, hrelCoverage, -⟩ := hnumbers rel hrel
  rw [hleft, hl] at hl'
  rw [hright, hr] at hr'
  obtain rfl := Option.some.inj hl'
  obtain rfl := Option.some.inj hr'
  rw [hrelMatched, hmatched, hrelTotal, htotal] at hrelCoverage
  have hhalf : percentage 1 2 = 50.0 := by decide +kernel
  exact ⟨rel, hrel, hpaths, hrelMatched.trans hmatched, hrelTotal.trans htotal, hrelCoverage.trans hhalf⟩

end Elements

end EntityDump
