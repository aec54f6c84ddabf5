import EntityDump.Sample.Reservoir
import Mathlib.Algebra.BigOperators.Fin
import Mathlib.Data.Fin.Tuple.Basic
import Mathlib.Data.List.Nodup
/-!
# Uniformity of the reservoir

A stream that is longer than a reservoir draws one choice for each item that finds it full. As many sequences
of choices lead to one selection of the items as to any other, namely the factorial of their number
(`card_choicesKeeping`).

The proof follows the stream to its last item. A selection without this item arises from the same selection
of the items before it, by each of the choices outside the reservoir (`card_slots_of_notMem`). A selection with
it arises from all selections before that have its other items, each time by one choice, the slot of the item
that it lacks (`card_slots_of_mem`).
-/

namespace EntityDump

/-! ### Choices -/

/-- The choices for the items beyond a capacity, one for each: a number up to the number of items before. -/
abbrev Choices (capacity overflow : Nat) :=
  (i : Fin overflow) → Fin (capacity + i + 1)

namespace Draws

variable {capacity overflow : Nat}

/-- Draws that follow choices. Other draws count for nothing and are zero. -/
def ofChoices (c : Choices capacity overflow) : Draws := fun seen =>
  if h : capacity ≤ seen ∧ seen < capacity + overflow then
    (c ⟨seen - capacity, by omega⟩).cast (by dsimp only; omega)
  else ⟨0, Nat.succ_pos seen⟩

/-- The choices that draws make for the items beyond a capacity. -/
def choices (draws : Draws) (capacity overflow : Nat) : Choices capacity overflow := fun i =>
  draws (capacity + i)

/-- The draw for an item beyond the capacity is the choice for it. -/
lemma ofChoices_add (c : Choices capacity overflow) (i : Fin overflow) :
    (ofChoices c (capacity + i) : Nat) = c i := by
  have hin : capacity ≤ capacity + (i : Nat) ∧ capacity + (i : Nat) < capacity + overflow :=
    ⟨Nat.le_add_right _ _, Nat.add_lt_add_left i.isLt _⟩
  have hi : ∀ j : Fin overflow, j = i → (c j : Nat) = c i := by
    rintro j rfl
    rfl
  rw [ofChoices, dif_pos hin, Fin.val_cast]
  exact hi _ (Fin.ext (Nat.add_sub_cancel_left _ _))

end Draws

open Finset (card_filter)
open scoped Nat

/-! ### What is kept of a stream -/

namespace Reservoir

variable {α β : Type} {capacity overflow : Nat} {draws : Draws}

/-- The last item of a stream is offered last. -/
lemma ofStream_concat (capacity : Nat) (draws : Draws) (stream : List α) (item : α) :
    ofStream capacity draws (stream ++ [item]) = (ofStream capacity draws stream).offer draws item :=
  List.foldl_concat ..

/-- A reservoir has seen its whole stream. -/
lemma seen_ofStream (stream : List α) : (ofStream capacity draws stream).seen = stream.length := by
  induction stream using List.reverseRecOn with
  | nil => rfl
  | append_singleton stream item ih =>
    rw [ofStream_concat, List.length_append, List.length_singleton, ← ih]
    rfl

/-- The capacity stays. -/
lemma capacity_ofStream (stream : List α) : (ofStream capacity draws stream).capacity = capacity := by
  induction stream using List.reverseRecOn with
  | nil => rfl
  | append_singleton stream item ih => rwa [ofStream_concat]

/-- A reservoir holds as many items as it has room for, or all. -/
lemma size_ofStream (stream : List α) :
    (ofStream capacity draws stream).items.size = min capacity stream.length := by
  induction stream using List.reverseRecOn with
  | nil => exact (Nat.min_zero _).symm
  | append_singleton stream item ih =>
    rw [ofStream_concat, size_offer, capacity_ofStream, ih, List.length_append, List.length_singleton]
    split <;> omega

/-- What is kept of a stream, in the order of the slots. -/
def kept (capacity : Nat) (draws : Draws) (stream : List α) : List α :=
  (ofStream capacity draws stream).items.toList

/-- Another item is added while there is room and otherwise goes into the slot that is drawn. -/
lemma kept_concat (capacity : Nat) (draws : Draws) (stream : List α) (item : α) :
    kept capacity draws (stream ++ [item]) =
      if stream.length < capacity then kept capacity draws stream ++ [item]
      else (kept capacity draws stream).set (draws stream.length) item := by
  have hroom : (ofStream capacity draws stream).items.size < (ofStream capacity draws stream).capacity ↔
      stream.length < capacity := by
    rw [size_ofStream, capacity_ofStream]
    omega
  unfold kept
  rw [ofStream_concat, offer, seen_ofStream]
  simp only [hroom]
  split
  · exact Array.toList_push
  · exact Array.toList_setIfInBounds

/-- As many items are kept as there is room for, or all. -/
lemma length_kept (stream : List α) :
    (kept capacity draws stream).length = min capacity stream.length :=
  (Array.length_toList).trans (size_ofStream stream)

/-- Everything is kept of a stream for which there is room. -/
lemma kept_of_length_le {stream : List α} (h : stream.length ≤ capacity) :
    kept capacity draws stream = stream := by
  induction stream using List.reverseRecOn with
  | nil => rfl
  | append_singleton stream item ih =>
    rw [List.length_append, List.length_singleton] at h
    rw [kept_concat, if_pos (by omega), ih (by omega)]

/-- Which items are kept does not depend on what they are. -/
lemma kept_map (f : α → β) (stream : List α) :
    kept capacity draws (stream.map f) = (kept capacity draws stream).map f := by
  induction stream using List.reverseRecOn with
  | nil => rfl
  | append_singleton stream item ih =>
    rw [List.map_append, List.map_singleton, kept_concat, kept_concat, List.length_map, ih]
    split
    · rw [List.map_append, List.map_singleton]
    · exact List.map_set.symm

/-- What is kept depends only on the draws for the items beyond the capacity. -/
lemma kept_congr {draws' : Draws} (stream : List α)
    (h : ∀ seen, capacity ≤ seen → seen < stream.length → (draws seen : Nat) = draws' seen) :
    kept capacity draws stream = kept capacity draws' stream := by
  induction stream using List.reverseRecOn with
  | nil => rfl
  | append_singleton stream item ih =>
    rw [List.length_append, List.length_singleton] at h
    rw [kept_concat, kept_concat, ih fun seen hle hlt => h seen hle (by omega)]
    split
    · rfl
    · next hfull => rw [h stream.length (by omega) (by omega)]

/-- Draws keep what their choices for the items beyond the capacity keep. -/
lemma kept_ofChoices_choices (draws : Draws) (stream : List α) :
    kept capacity (.ofChoices (draws.choices capacity (stream.length - capacity))) stream =
      kept capacity draws stream := by
  refine kept_congr stream fun seen hle hlt => ?_
  obtain ⟨i, rfl⟩ := Nat.exists_eq_add_of_le hle
  exact Draws.ofChoices_add _ ⟨i, by omega⟩

/-- What is kept comes from the stream. -/
lemma mem_of_mem_kept {stream : List α} {item : α} (h : item ∈ kept capacity draws stream) :
    item ∈ stream := by
  induction stream using List.reverseRecOn with
  | nil => exact h
  | append_singleton stream last ih =>
    rw [kept_concat] at h
    rw [List.mem_append, List.mem_singleton]
    split at h
    · rcases List.mem_append.1 h with h | h
      · exact .inl (ih h)
      · exact .inr (List.mem_singleton.1 h)
    · rcases List.mem_or_eq_of_mem_set h with h | h
      · exact .inl (ih h)
      · exact .inr h

/-- No item is kept twice. -/
lemma nodup_kept {stream : List α} (h : stream.Nodup) : (kept capacity draws stream).Nodup := by
  induction stream using List.reverseRecOn with
  | nil => exact List.nodup_nil
  | append_singleton stream last ih =>
    obtain ⟨hstream, -, hlast⟩ := List.nodup_append'.1 h
    have hnew : last ∉ kept capacity draws stream := fun hmem =>
      hlast (mem_of_mem_kept hmem) (List.mem_singleton_self last)
    rw [kept_concat]
    split
    · exact List.nodup_append'.2 ⟨ih hstream, List.nodup_singleton _, by simpa using hnew⟩
    · exact (ih hstream).set hnew

/-! ### Counting choices -/

section Slots

variable [DecidableEq α] {slots : List α} {item : α} {S : Finset α}

/-- An item that goes into a slot takes the place of what was there. -/
lemma erase_toFinset_set (hnodup : slots.Nodup) (hitem : item ∉ slots) {d : Nat} (h : d < slots.length) :
    (slots.set d item).toFinset.erase item = slots.toFinset.erase slots[d] := by
  obtain ⟨before, behind, hslots, -, hset⟩ := List.exists_of_set h
  generalize slots[d] = old at hslots ⊢
  rw [hslots] at hnodup hitem
  rw [hset, hslots]
  ext a
  simp only [List.mem_append, List.mem_cons, not_or] at hitem
  simp only [List.nodup_append', List.nodup_cons, List.disjoint_cons_right] at hnodup
  simp only [Finset.mem_erase, List.mem_toFinset, List.mem_append, List.mem_cons]
  constructor
  · rintro ⟨hne, ha⟩
    refine ⟨?_, by tauto⟩
    rintro rfl
    tauto
  · rintro ⟨hne, ha⟩
    refine ⟨?_, by tauto⟩
    rintro rfl
    tauto

/-- A selection without the last item arises from the same selection before, by each choice outside the
slots. -/
lemma card_slots_of_notMem (hlength : slots.length = capacity) (hitem : item ∉ S) :
    Finset.card {d : Fin (capacity + overflow + 1) | (slots.set d item).toFinset = S} =
      if slots.toFinset = S then overflow + 1 else 0 := by
  have hset : ∀ d : Fin (capacity + overflow + 1),
      (slots.set d item).toFinset = S ↔ capacity ≤ d ∧ slots.toFinset = S := by
    intro d
    rcases Nat.lt_or_ge d capacity with hd | hd
    · have hmem : item ∈ (slots.set d item).toFinset :=
        List.mem_toFinset.2 (List.mem_set (by omega) item)
      refine iff_of_false ?_ (by omega)
      rintro rfl
      exact hitem hmem
    · rw [List.set_eq_of_length_le (by omega)]
      exact (and_iff_right hd).symm
  simp only [hset]
  split
  · next h =>
    have hlt : capacity < capacity + overflow + 1 := by omega
    calc Finset.card {d : Fin (capacity + overflow + 1) | capacity ≤ d ∧ slots.toFinset = S}
        = Finset.card (Finset.Ici (⟨capacity, hlt⟩ : Fin (capacity + overflow + 1))) := by
          congr 1
          ext d
          simp [h, Fin.le_def]
      _ = overflow + 1 := by rw [Fin.card_Ici]; dsimp only; omega
  · next h => simp [h]

/-- A selection with the last item arises from each one before that has its other items, by the choice of the
slot whose item it lacks. -/
lemma card_slots_of_mem (hnodup : slots.Nodup) (hlength : slots.length = capacity)
    (hnew : item ∉ slots) (hitem : item ∈ S) (hcard : S.card = capacity) :
    Finset.card {d : Fin (capacity + overflow + 1) | (slots.set d item).toFinset = S} =
      if S.erase item ⊆ slots.toFinset then 1 else 0 := by
  -- The slot that is taken loses its item; what is left is the selection without the new one.
  have hset : ∀ d : Fin (capacity + overflow + 1), (slots.set d item).toFinset = S ↔
      ∃ h : (d : Nat) < slots.length, slots.toFinset.erase slots[(d : Nat)] = S.erase item := by
    intro d
    constructor
    · intro h
      have hd : (d : Nat) < slots.length := by
        by_contra hd
        rw [List.set_eq_of_length_le (by omega)] at h
        exact hnew (List.mem_toFinset.1 (h ▸ hitem))
      exact ⟨hd, by rw [← erase_toFinset_set hnodup hnew hd, h]⟩
    · rintro ⟨hd, h⟩
      have hmem : item ∈ (slots.set d item).toFinset := List.mem_toFinset.2 (List.mem_set hd item)
      rw [← erase_toFinset_set hnodup hnew hd] at h
      rw [← Finset.insert_erase hmem, h, Finset.insert_erase hitem]
  simp only [hset]
  split
  · next hsub =>
    have hsize : (S.erase item).card + 1 = slots.toFinset.card := by
      rw [Finset.card_erase_add_one hitem, List.toFinset_card_of_nodup hnodup, hcard, hlength]
    obtain ⟨y, hy, hslots⟩ := Finset.exists_eq_insert_iff.2 ⟨hsub, hsize⟩
    have hmem : y ∈ slots := List.mem_toFinset.1 (hslots ▸ Finset.mem_insert_self y _)
    obtain ⟨j, hj, rfl⟩ := List.mem_iff_getElem.1 hmem
    refine Finset.card_eq_one.2 ⟨⟨j, by omega⟩, ?_⟩
    ext d
    rw [Finset.mem_filter_univ, Finset.mem_singleton, Fin.ext_iff]
    constructor
    · rintro ⟨hd, h⟩
      have hlost : slots[(d : Nat)] ∉ S.erase item := h ▸ Finset.notMem_erase _ _
      have hold : slots[(d : Nat)] ∈ insert slots[j] (S.erase item) := by
        rw [hslots]
        exact List.mem_toFinset.2 (List.getElem_mem hd)
      have heq : slots[(d : Nat)] = slots[j] := (Finset.mem_insert.1 hold).resolve_right hlost
      exact (hnodup.getElem_inj_iff).1 heq
    · intro hd
      simp only [hd, ← hslots, Finset.erase_insert hy, exists_prop, and_true]
      exact hj
  · next hsub =>
    rw [Finset.card_eq_zero, Finset.filter_eq_empty_iff]
    rintro d - ⟨hd, h⟩
    exact hsub (h ▸ Finset.erase_subset _ _)

end Slots

/-- What is kept of a stream with another item follows the choice for it. -/
lemma kept_ofChoices_snoc {stream : List α} (hlength : stream.length = capacity + overflow)
    (c : Choices capacity overflow) (d : Fin (capacity + overflow + 1)) (item : α) :
    kept capacity (.ofChoices (Fin.snoc c d : Choices capacity (overflow + 1))) (stream ++ [item]) =
      (kept capacity (.ofChoices c) stream).set d item := by
  let snoc : Choices capacity (overflow + 1) := Fin.snoc c d
  have hbefore : ∀ seen, capacity ≤ seen → seen < stream.length →
      (Draws.ofChoices snoc seen : Nat) = Draws.ofChoices c seen := by
    intro seen hle hlt
    obtain ⟨i, rfl⟩ := Nat.exists_eq_add_of_le hle
    have hi : i < overflow := by omega
    have hsnoc : snoc (Fin.castSucc ⟨i, hi⟩) = c ⟨i, hi⟩ := Fin.snoc_castSucc ..
    rw [Draws.ofChoices_add c ⟨i, hi⟩, ← hsnoc]
    exact Draws.ofChoices_add snoc (Fin.castSucc ⟨i, hi⟩)
  have hlast : (Draws.ofChoices snoc stream.length : Nat) = d := by
    have hsnoc : snoc (Fin.last overflow) = d := Fin.snoc_last ..
    rw [hlength, ← hsnoc]
    exact Draws.ofChoices_add snoc (Fin.last overflow)
  rw [kept_concat, if_neg (by omega), hlast, kept_congr stream hbefore]

section Count

variable [DecidableEq α] {stream : List α} {S : Finset α}

/-- The selection of a stream that a sequence of choices keeps. -/
def keptBy (stream : List α) (c : Choices capacity overflow) : Finset α :=
  (kept capacity (.ofChoices c) stream).toFinset

/-- The sequences of choices that keep a selection of a stream. -/
def choicesKeeping (capacity overflow : Nat) (stream : List α) (S : Finset α) :
    Finset (Choices capacity overflow) :=
  {c | keptBy stream c = S}

/-- Choices keep a selection if it is what they leave. -/
lemma mem_choicesKeeping (c : Choices capacity overflow) :
    c ∈ choicesKeeping capacity overflow stream S ↔ keptBy stream c = S :=
  Finset.mem_filter_univ c

/-- Any choices keep as many items as there is room for. -/
lemma card_keptBy (hnodup : stream.Nodup) (hlength : stream.length = capacity + overflow)
    (c : Choices capacity overflow) : (keptBy stream c).card = capacity := by
  rw [keptBy, List.toFinset_card_of_nodup (nodup_kept hnodup), length_kept]
  omega

/-- The sequences of choices for a stream are those for the items before the last one, each with a choice for
it. -/
lemma card_choicesKeeping_concat (hlength : stream.length = capacity + overflow) (item : α)
    (S : Finset α) :
    (choicesKeeping capacity (overflow + 1) (stream ++ [item]) S).card =
      ∑ c : Choices capacity overflow, Finset.card {d : Fin (capacity + overflow + 1) |
        ((kept capacity (.ofChoices c) stream).set d item).toFinset = S} := by
  unfold choicesKeeping keptBy
  simp only [card_filter, ← kept_ofChoices_snoc hlength]
  rw [← (Fin.snocEquiv fun i : Fin (overflow + 1) => Fin (capacity + i + 1)).sum_comp,
    Fintype.sum_prod_type_right]
  rfl

/-- Of a selection with one item left out, any other item of the stream may stand in its place. -/
lemma card_choices_of_subset {count : Nat} (hnodup : stream.Nodup)
    (hlength : stream.length = capacity + overflow) (hS : S ⊆ stream.toFinset)
    (hcard : S.card + 1 = capacity)
    (hcount : ∀ T ⊆ stream.toFinset, T.card = capacity →
      (choicesKeeping capacity overflow stream T).card = count) :
    Finset.card {c : Choices capacity overflow | S ⊆ keptBy stream c} = (overflow + 1) * count := by
  -- What is kept beside the given items is a single further one, so the choices fall into parts by it.
  have hparts : ({c | S ⊆ keptBy stream c} : Finset (Choices capacity overflow)) =
      (stream.toFinset \ S).biUnion fun y => choicesKeeping capacity overflow stream (insert y S) := by
    ext c
    simp only [Finset.mem_biUnion, mem_choicesKeeping, Finset.mem_filter_univ, Finset.mem_sdiff,
      List.mem_toFinset]
    constructor
    · intro hsub
      obtain ⟨y, hy, hkept⟩ := Finset.exists_eq_insert_iff.2
        ⟨hsub, hcard.trans (card_keptBy hnodup hlength c).symm⟩
      have hmem : y ∈ keptBy stream c := hkept ▸ Finset.mem_insert_self y S
      exact ⟨y, ⟨mem_of_mem_kept (List.mem_toFinset.1 hmem), hy⟩, hkept.symm⟩
    · rintro ⟨y, -, hkept⟩
      rw [hkept]
      exact Finset.subset_insert y S
  have hdisjoint : ((stream.toFinset \ S : Finset α) : Set α).PairwiseDisjoint
      fun y => choicesKeeping capacity overflow stream (insert y S) := by
    intro y hy z hz hne
    refine Finset.disjoint_left.2 fun c hc hc' => hne ?_
    have hnew : y ∉ S := (Finset.mem_sdiff.1 (Finset.mem_coe.1 hy)).2
    have heq : insert y S = insert z S :=
      ((mem_choicesKeeping c).1 hc).symm.trans ((mem_choicesKeeping c).1 hc')
    have hmem : y ∈ insert z S := heq ▸ Finset.mem_insert_self y S
    exact (Finset.mem_insert.1 hmem).resolve_right hnew
  have hsize : ∀ y ∈ stream.toFinset \ S,
      (choicesKeeping capacity overflow stream (insert y S)).card = count := by
    intro y hy
    obtain ⟨hy, hnew⟩ := Finset.mem_sdiff.1 hy
    exact hcount _ (Finset.insert_subset hy hS) (by rw [Finset.card_insert_of_notMem hnew, hcard])
  have hitems : (stream.toFinset \ S).card = overflow + 1 := by
    rw [Finset.card_sdiff_of_subset hS, List.toFinset_card_of_nodup hnodup]
    omega
  rw [hparts, Finset.card_biUnion hdisjoint, Finset.sum_congr rfl hsize, Finset.sum_const, hitems,
    smul_eq_mul]

/-- Every selection of distinct items that fills the reservoir is kept by equally many sequences of choices. -/
theorem card_choicesKeeping (hnodup : stream.Nodup) (hlength : stream.length = capacity + overflow)
    (hS : S ⊆ stream.toFinset) (hcard : S.card = capacity) :
    (choicesKeeping capacity overflow stream S).card = overflow ! := by
  -- The induction takes the last item of the stream off; its slot is drawn from all items up to it.
  induction overflow generalizing stream S with
  | zero =>
    have hall : S = stream.toFinset := by
      refine Finset.eq_of_subset_of_card_le hS ?_
      rw [List.toFinset_card_of_nodup hnodup]
      omega
    have hkept : ∀ c : Choices capacity 0, keptBy stream c = S := by
      intro c
      rw [keptBy, kept_of_length_le (by omega), hall]
    rw [choicesKeeping, Finset.filter_true_of_mem fun c _ => hkept c, Finset.card_univ]
    exact Fintype.card_unique
  | succ overflow ih =>
    obtain rfl | ⟨front, item, rfl⟩ := List.eq_nil_or_concat' stream
    · simp at hlength
    rw [List.length_append, List.length_singleton] at hlength
    have hfront : front.length = capacity + overflow := by omega
    obtain ⟨hnodup, -, hitem⟩ := List.nodup_append'.1 hnodup
    have hnew : item ∉ front := fun hmem => hitem hmem (List.mem_singleton_self item)
    have hslots : ∀ c : Choices capacity overflow,
        (kept capacity (.ofChoices c) front).length = capacity := by
      intro c
      rw [length_kept]
      omega
    rw [card_choicesKeeping_concat hfront]
    by_cases hmem : item ∈ S
    · -- The item is selected: it has replaced the one item kept before it that the selection lacks.
      have hrest : S.erase item ⊆ front.toFinset := by
        intro y hy
        obtain ⟨hne, hy⟩ := Finset.mem_erase.1 hy
        simpa [hne] using hS hy
      calc _ = ∑ c : Choices capacity overflow, if S.erase item ⊆ keptBy front c then 1 else 0 :=
            Finset.sum_congr rfl fun c _ => card_slots_of_mem (nodup_kept hnodup) (hslots c)
              (fun h => hnew (mem_of_mem_kept h)) hmem hcard
        _ = Finset.card {c : Choices capacity overflow | S.erase item ⊆ keptBy front c} :=
            (card_filter _ _).symm
        _ = (overflow + 1) * overflow ! := by
            refine card_choices_of_subset hnodup hfront hrest ?_ fun T hT hcard => ih hnodup hfront hT hcard
            rw [Finset.card_erase_add_one hmem, hcard]
        _ = (overflow + 1) ! := (Nat.factorial_succ overflow).symm
    · -- The item is not selected, so its choice is beyond the reservoir.
      have hrest : S ⊆ front.toFinset := by
        intro y hy
        have hne : y ≠ item := by
          rintro rfl
          exact hmem hy
        simpa [hne] using hS hy
      calc _ = ∑ c : Choices capacity overflow, if keptBy front c = S then overflow + 1 else 0 :=
            Finset.sum_congr rfl fun c _ => card_slots_of_notMem (hslots c) hmem
        _ = (choicesKeeping capacity overflow front S).card * (overflow + 1) := by
            rw [← Finset.sum_filter, Finset.sum_const, smul_eq_mul]
            rfl
        _ = (overflow + 1) ! := by
            rw [ih hnodup hfront hrest hcard, Nat.factorial_succ, Nat.mul_comm]

end Count

end Reservoir

end EntityDump
