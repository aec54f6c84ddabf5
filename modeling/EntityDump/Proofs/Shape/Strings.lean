import EntityDump.Shape.Basic
import Mathlib.Data.List.Nodup
import Mathlib.Data.List.Perm.Subperm
/-!
# Merging what is known of strings

Patterns are listed in their usual order, each once (`Listed`), so merging them is a union of sets. Of the
examples only the first few different ones are kept (`Capped`). Which ones are kept depends on the order of
the observations, but not on how they are grouped: `mergeExamples_assoc`. How many are kept does not even
depend on the order (`length_mergeExamples_comm`), and while there is room for all of them neither does
which (`perm_mergeExamples_comm`).
-/

namespace EntityDump.Shape

/-! ### Patterns -/

section Patterns

variable {p q r : List Pattern}

/-- The patterns stand in their usual order, each once. -/
def Listed (patterns : List Pattern) : Prop :=
  Pattern.all.filter (patterns.contains ·) = patterns

lemma mem_all (p : Pattern) : p ∈ Pattern.all := by
  cases p <;> decide

/-- Patterns picked from all have exactly those for which the choice says so. -/
lemma contains_filter_all (f : Pattern → Bool) (p : Pattern) : (Pattern.all.filter f).contains p = f p := by
  rw [List.contains_eq_mem]
  simp [List.mem_filter, mem_all]

/-- Merged patterns are listed. -/
lemma listed_mergePatterns (p q : List Pattern) : Listed (mergePatterns p q) := by
  unfold Listed mergePatterns
  simp only [contains_filter_all]

lemma listed_nil : Listed [] := by
  simp [Listed]

lemma listed_singleton (p : Pattern) : Listed [p] := by
  cases p <;> rfl

/-- Merging patterns is associative. -/
lemma mergePatterns_assoc (p q r : List Pattern) :
    mergePatterns (mergePatterns p q) r = mergePatterns p (mergePatterns q r) := by
  unfold mergePatterns
  simp only [contains_filter_all, Bool.or_assoc]

/-- Patterns merge to the same list from either side. -/
lemma mergePatterns_comm (p q : List Pattern) : mergePatterns p q = mergePatterns q p := by
  unfold mergePatterns
  simp only [Bool.or_comm]

/-- Listed patterns merged with themselves stay the same. -/
lemma mergePatterns_self (h : Listed p) : mergePatterns p p = p := by
  unfold mergePatterns
  simp only [Bool.or_self]
  exact h

end Patterns

/-! ### Examples -/

section Examples

variable {m : Nat} {a b c : List String} {e : String}

/-- Examples as they are kept: different ones, and no more than the limit. -/
structure Capped (m : Nat) (examples : List String) : Prop where
  nodup : examples.Nodup
  length_le : examples.length ≤ m

/-- Examples that are offered in two lists are taken from one after the other. -/
lemma mergeExamples_append (m : Nat) (a b c : List String) :
    mergeExamples m a (b ++ c) = mergeExamples m (mergeExamples m a b) c :=
  List.foldl_append

/-- One more example. -/
lemma mergeExamples_singleton (m : Nat) (a : List String) (e : String) :
    mergeExamples m a [e] = if a.length < m ∧ e ∉ a then a ++ [e] else a := by
  simp [mergeExamples]

/-- Examples are taken one by one. -/
lemma mergeExamples_cons (m : Nat) (a : List String) (e : String) (b : List String) :
    mergeExamples m a (e :: b) = mergeExamples m (mergeExamples m a [e]) b := by
  rw [← mergeExamples_append, List.singleton_append]

/-- Further examples keep the limit and repeat none. -/
lemma Capped.mergeExamples (h : Capped m a) (b : List String) : Capped m (mergeExamples m a b) := by
  induction b generalizing a with
  | nil => exact h
  | cons e b ih =>
    rw [mergeExamples_cons]
    refine ih ?_
    rw [mergeExamples_singleton]
    split
    · next hnew =>
      refine ⟨h.nodup.append (List.nodup_singleton e) (by simpa using hnew.2), ?_⟩
      simpa using Nat.succ_le_of_lt hnew.1
    · exact h

/-- What is kept comes first. -/
lemma prefix_mergeExamples (m : Nat) (a b : List String) : a <+: mergeExamples m a b := by
  induction b generalizing a with
  | nil => exact List.prefix_rfl
  | cons e b ih =>
    rw [mergeExamples_cons]
    refine List.IsPrefix.trans ?_ (ih _)
    rw [mergeExamples_singleton]
    split
    · exact List.prefix_append a [e]
    · exact List.prefix_rfl

/-- An example that is not kept finds no room. -/
lemma mem_mergeExamples_or_full (m : Nat) (a : List String) (h : e ∈ b) :
    e ∈ mergeExamples m a b ∨ m ≤ (mergeExamples m a b).length := by
  induction b generalizing a with
  | nil => simp at h
  | cons x b ih =>
    rw [mergeExamples_cons]
    rcases List.mem_cons.1 h with rfl | h
    · have hfront := prefix_mergeExamples m (mergeExamples m a [e]) b
      by_cases hfull : m ≤ a.length
      · have hkept := (prefix_mergeExamples m a [e]).length_le
        exact .inr (Nat.le_trans hfull (Nat.le_trans hkept hfront.length_le))
      · refine .inl (hfront.subset ?_)
        rw [mergeExamples_singleton]
        by_cases hmem : e ∈ a <;> simp [hmem, Nat.lt_of_not_le hfull]
    · exact ih _ h

/-- Every example comes from one side. -/
lemma mem_of_mem_mergeExamples (h : e ∈ mergeExamples m a b) : e ∈ a ∨ e ∈ b := by
  induction b generalizing a with
  | nil => exact .inl h
  | cons x b ih =>
    rw [mergeExamples_cons] at h
    rcases ih h with h | h
    · rw [mergeExamples_singleton] at h
      split at h
      · rcases List.mem_append.1 h with h | h
        · exact .inl h
        · exact .inr (List.mem_cons.2 (.inl (List.mem_singleton.1 h)))
      · exact .inl h
    · exact .inr (List.mem_cons_of_mem x h)

/-- Examples offered to themselves add nothing. -/
lemma mergeExamples_self (m : Nat) (a : List String) : mergeExamples m a a = a := by
  have h : ∀ b, b ⊆ a → mergeExamples m a b = a := fun b => by
    induction b with
    | nil => exact fun _ => rfl
    | cons e b ih =>
      intro hsub
      obtain ⟨he, hb⟩ := List.cons_subset.1 hsub
      rw [mergeExamples_cons, mergeExamples_singleton, if_neg (by simp [he])]
      exact ih hb
  exact h a (List.Subset.refl a)

/-- An example that comes after others may as well come with them. -/
lemma mergeExamples_mergeExamples_singleton (hb : Capped m b) (e : String) :
    mergeExamples m (mergeExamples m a b) [e] = mergeExamples m a (mergeExamples m b [e]) := by
  by_cases hnew : b.length < m ∧ e ∉ b
  · rw [mergeExamples_singleton m b, if_pos hnew, mergeExamples_append]
  rw [mergeExamples_singleton m b, if_neg hnew, mergeExamples_singleton, if_neg]
  rintro ⟨hroom, he⟩
  -- With room left everything of `b` is kept, so `b` is not full and lacks the example.
  have hsub : b ⊆ mergeExamples m a b := fun x hx =>
    (mem_mergeExamples_or_full m a hx).resolve_right (Nat.not_le.2 hroom)
  exact hnew ⟨Nat.lt_of_le_of_lt (hb.nodup.subperm hsub).length_le hroom, fun h => he (hsub h)⟩

/-- Which examples are kept does not depend on how the observations are grouped. -/
theorem mergeExamples_assoc (hb : Capped m b) (a c : List String) :
    mergeExamples m (mergeExamples m a b) c = mergeExamples m a (mergeExamples m b c) := by
  induction c generalizing b with
  | nil => rfl
  | cons e c ih =>
    rw [mergeExamples_cons m (mergeExamples m a b), mergeExamples_mergeExamples_singleton hb,
      ih (hb.mergeExamples [e]), ← mergeExamples_cons]

/-- With room left all examples of both sides are kept. -/
lemma mem_mergeExamples_iff (hroom : (mergeExamples m a b).length < m) :
    e ∈ mergeExamples m a b ↔ e ∈ a ∨ e ∈ b := by
  refine ⟨mem_of_mem_mergeExamples, ?_⟩
  rintro (h | h)
  · exact (prefix_mergeExamples m a b).subset h
  · exact (mem_mergeExamples_or_full m a h).resolve_right (Nat.not_le.2 hroom)

/-- With room left one may exchange the sides. -/
lemma length_mergeExamples_le (hb : Capped m b)
    (hroom : (mergeExamples m a b).length < m) :
    (mergeExamples m b a).length ≤ (mergeExamples m a b).length := by
  refine ((hb.mergeExamples a).nodup.subperm fun e he => ?_).length_le
  rw [mem_mergeExamples_iff hroom]
  exact (mem_of_mem_mergeExamples he).symm

/-- How many examples are kept does not depend on the order of the observations. -/
theorem length_mergeExamples_comm (ha : Capped m a) (hb : Capped m b) :
    (mergeExamples m a b).length = (mergeExamples m b a).length := by
  have hab := (ha.mergeExamples b).length_le
  have hba := (hb.mergeExamples a).length_le
  by_cases hroom : (mergeExamples m a b).length < m
  · have hle := length_mergeExamples_le hb hroom
    exact Nat.le_antisymm (length_mergeExamples_le ha (Nat.lt_of_le_of_lt hle hroom)) hle
  · by_cases hroom' : (mergeExamples m b a).length < m
    · have := length_mergeExamples_le ha hroom'
      omega
    · omega

/-- With room left, which examples are kept does not depend on the order of the observations. -/
theorem perm_mergeExamples_comm (ha : Capped m a) (hb : Capped m b)
    (hroom : (mergeExamples m a b).length < m) :
    (mergeExamples m a b).Perm (mergeExamples m b a) := by
  have hroom' : (mergeExamples m b a).length < m := length_mergeExamples_comm ha hb ▸ hroom
  rw [List.perm_ext_iff_of_nodup (ha.mergeExamples b).nodup (hb.mergeExamples a).nodup]
  intro e
  rw [mem_mergeExamples_iff hroom, mem_mergeExamples_iff hroom', or_comm]

end Examples

end EntityDump.Shape
