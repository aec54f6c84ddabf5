import EntityDump.Proofs.Json.Document
import EntityDump.Shape.Basic
import Mathlib.Data.List.Nodup
/-!
# Merging the fields of objects

What a merge of two objects does is told key by key. The merged object has the keys of the first in their
order and then the new ones of the second (`keys_mergeFields`), and what stands under a key depends on what
stood there in either (`find?_mergeFields`). A list of fields without repeated keys is known from its keys
and from what stands under each (`fields_ext`).
-/

namespace EntityDump.Shape

open Json.Fields (find?)

/-- To prove something of every shape, prove it of shapes without children, and of the others from what
they hold. -/
@[elab_as_elim]
theorem induction {motive : Shape → Prop}
    (object : ∀ fields cut, (∀ f ∈ fields, motive f.2.2) → motive (.object fields cut))
    (array : ∀ minLen maxLen items cut, (∀ node ∈ items, motive node) →
      motive (.array minLen maxLen items cut))
    (string : ∀ patterns examples, motive (.string patterns examples))
    (number : ∀ min max integer, motive (.number min max integer)) (boolean : motive .boolean)
    (null : motive .null) (union : ∀ members, (∀ m ∈ members, motive m) → motive (.union members))
    (s : Shape) : motive s :=
  match s with
  | .object fields cut => object fields cut fun f _ =>
      induction object array string number boolean null union f.2.2
  | .array minLen maxLen items cut => array minLen maxLen items cut fun node _ =>
      induction object array string number boolean null union node
  | .string patterns examples => string patterns examples
  | .number min max integer => number min max integer
  | .boolean => boolean
  | .null => null
  | .union members => union members fun m _ =>
      induction object array string number boolean null union m
termination_by sizeOf s
decreasing_by
  · next h =>
    have := List.sizeOf_lt_of_mem h
    obtain ⟨key, optional, node⟩ := f
    simp only [Prod.mk.sizeOf_spec, Shape.object.sizeOf_spec] at this ⊢
    omega
  · next h =>
    rw [Option.mem_def] at h
    subst h
    simp only [Shape.array.sizeOf_spec, Option.some.sizeOf_spec]
    omega
  · next h =>
    have := List.sizeOf_lt_of_mem h
    simp only [Shape.union.sizeOf_spec]
    omega

/-- The keys of fields, in their order. -/
def keys (fields : List Field) : List String :=
  fields.map (·.1)

section Lookup

variable {fields fields' : List Field} {key k : String} {value : Bool × Shape}

@[simp]
lemma keys_nil : keys [] = [] := rfl

@[simp]
lemma keys_cons (field : Field) (fields : List Field) : keys (field :: fields) = field.1 :: keys fields :=
  rfl

/-- Nothing stands under what is no key. -/
@[simp]
lemma find?_eq_none_iff : find? key fields = none ↔ key ∉ keys fields := by
  induction fields with
  | nil => simp [find?]
  | cons field fields ih =>
    by_cases h : field.1 = key
    · simp [find?, h]
    · simp [find?, h, ih, Ne.symm h]

/-- What stands under a key belongs to a field. -/
lemma mem_of_find?_eq_some (h : find? key fields = some value) : (key, value) ∈ fields := by
  induction fields with
  | nil => simp [find?] at h
  | cons field fields ih =>
    obtain ⟨k, v⟩ := field
    by_cases hk : k = key
    · simp_all [find?]
    · exact List.mem_cons_of_mem _ (ih (by simpa [find?, hk] using h))

/-- Where no key repeats, a field is what stands under its key. -/
lemma find?_eq_some_of_mem (hnodup : (keys fields).Nodup) (h : (key, value) ∈ fields) :
    find? key fields = some value := by
  induction fields with
  | nil => simp at h
  | cons field fields ih =>
    obtain ⟨k, v⟩ := field
    simp only [keys_cons, List.nodup_cons] at hnodup
    rcases List.mem_cons.1 h with h | h
    · simp_all [find?]
    · have hk : k ≠ key := fun hk => hnodup.1 (hk ▸ List.mem_map_of_mem h)
      simpa [find?, hk] using ih hnodup.2 h

/-- Fields without repeated keys are equal if their keys are and the same stands under each. -/
lemma fields_ext (hkeys : keys fields = keys fields') (hnodup : (keys fields).Nodup)
    (h : ∀ key, find? key fields = find? key fields') : fields = fields' := by
  induction fields generalizing fields' with
  | nil =>
    symm
    simpa [keys] using hkeys
  | cons field fields ih =>
    cases fields' with
    | nil => simp at hkeys
    | cons field' fields' =>
      obtain ⟨k, v⟩ := field
      obtain ⟨k', v'⟩ := field'
      simp only [keys_cons, List.cons.injEq, List.nodup_cons] at hkeys hnodup
      obtain ⟨rfl, hkeys⟩ := hkeys
      have hhead := h k
      simp only [find?, if_true, Option.some.injEq] at hhead
      subst hhead
      congr
      refine ih hkeys hnodup.2 fun key => ?_
      by_cases hk : k = key
      · subst hk
        rw [find?_eq_none_iff.2 hnodup.1, find?_eq_none_iff.2 (hkeys ▸ hnodup.1)]
      · simpa [find?, hk] using h key

end Lookup

/-! ### Putting values under keys -/

section Upsert

variable (change : Bool × Shape → Bool × Shape) (add : Bool × Shape)

/-- A new key comes last. -/
lemma keys_upsert (key : String) (fields : List Field) :
    keys (upsert key change add fields) =
      if key ∈ keys fields then keys fields else keys fields ++ [key] := by
  induction fields with
  | nil => simp [upsert]
  | cons field fields ih =>
    by_cases h : field.1 = key
    · simp [upsert, h]
    · simp only [upsert, h, if_false, keys_cons, ih, List.mem_cons, Ne.symm h, false_or]
      split <;> rfl

/-- Keys that are different stay so when a field is put among them. -/
lemma nodup_keys_upsert {key : String} {fields : List Field} (h : (keys fields).Nodup) :
    (keys (upsert key change add fields)).Nodup := by
  rw [keys_upsert]
  split
  · exact h
  · next hmem => simpa [List.nodup_append] using ⟨h, fun k hk hkey => hmem (hkey ▸ hk)⟩

/-- What stands under a key after a value was put under one. -/
lemma find?_upsert (key k : String) (fields : List Field) :
    find? k (upsert key change add fields) =
      if key = k then some ((find? key fields).elim add change) else find? k fields := by
  induction fields with
  | nil => simp [upsert, find?]
  | cons field fields ih =>
    obtain ⟨k', v⟩ := field
    by_cases h : k' = key
    · by_cases hk : key = k <;> simp_all [upsert, find?]
    · by_cases hk : k' = k
      · subst hk
        simp [upsert, find?, h, Ne.symm h]
      · simp [upsert, find?, h, hk, ih]

end Upsert

/-! ### Two objects -/

section Merge

variable (maxSamples : Nat)

lemma mergeFields_nil (mine : List Field) : mergeFields maxSamples [] mine = mine := rfl

/-- Merging fields puts them into the others one after another. -/
lemma mergeFields_cons (key : String) (optional : Bool) (node : Shape) (incoming mine : List Field) :
    mergeFields maxSamples ((key, optional, node) :: incoming) mine =
      mergeFields maxSamples incoming (upsert key
        (fun field => (field.1 || optional, field.2.merge maxSamples node)) (true, node) mine) := by
  cases node <;> rfl

/-- What stands under a key in an object merged from two, given what stands there in either. -/
def joinField : Option (Bool × Shape) → Option (Bool × Shape) → Option (Bool × Shape)
  | some mine, some incoming =>
    some (mine.1 || incoming.1, mine.2.merge maxSamples incoming.2)
  | some mine, none => some (true, mine.2)
  | none, some incoming => some (true, incoming.2)
  | none, none => none

/-- What stands in the merged object comes from the first alone, from the second alone, or from both. -/
lemma of_joinField_eq_some {mine incoming : Option (Bool × Shape)} {value : Bool × Shape}
    (h : joinField maxSamples mine incoming = some value) :
    (∃ ours, mine = some ours ∧ incoming = none ∧ value = (true, ours.2)) ∨
      (∃ theirs, mine = none ∧ incoming = some theirs ∧ value = (true, theirs.2)) ∨
      ∃ ours theirs, mine = some ours ∧ incoming = some theirs ∧
        value = (ours.1 || theirs.1, ours.2.merge maxSamples theirs.2) := by
  cases mine with
  | none =>
    cases incoming with
    | none => cases h
    | some theirs => exact .inr (.inl ⟨theirs, rfl, rfl, (Option.some.inj h).symm⟩)
  | some ours =>
    cases incoming with
    | none => exact .inl ⟨ours, rfl, rfl, (Option.some.inj h).symm⟩
    | some theirs => exact .inr (.inr ⟨ours, theirs, rfl, rfl, (Option.some.inj h).symm⟩)

/-- The keys of the first object in their order, and then the new ones of the second. -/
lemma keys_mergeFields {incoming : List Field} (hnodup : (keys incoming).Nodup) (mine : List Field) :
    keys (mergeFields maxSamples incoming mine) =
      keys mine ++ (keys incoming).filter (· ∉ keys mine) := by
  induction incoming generalizing mine with
  | nil => simp [mergeFields_nil]
  | cons field incoming ih =>
    obtain ⟨key, optional, node⟩ := field
    simp only [keys_cons, List.nodup_cons] at hnodup
    rw [mergeFields_cons, ih hnodup.2, keys_upsert, keys_cons, List.filter_cons]
    by_cases h : key ∈ keys mine
    · simp [h]
    · have hother : (keys incoming).filter (· ∉ keys mine ++ [key]) =
          (keys incoming).filter (· ∉ keys mine) :=
        List.filter_congr fun k hk => by
          have : k ≠ key := fun h => hnodup.1 (h ▸ hk)
          simp [this]
      rw [if_neg h, hother]
      simp [h]

/-- What stands under a key after fields were merged into others. -/
lemma find?_mergeFields {incoming : List Field} (hnodup : (keys incoming).Nodup) (mine : List Field)
    (k : String) :
    find? k (mergeFields maxSamples incoming mine) =
      (find? k incoming).elim (find? k mine) fun other =>
        joinField maxSamples (find? k mine) (some other) := by
  induction incoming generalizing mine with
  | nil => simp [mergeFields_nil, find?]
  | cons field incoming ih =>
    obtain ⟨key, optional, node⟩ := field
    simp only [keys_cons, List.nodup_cons] at hnodup
    rw [mergeFields_cons, ih hnodup.2, find?_upsert, find?]
    by_cases h : key = k
    · subst h
      rw [find?_eq_none_iff.2 hnodup.1]
      cases find? key mine <;> simp [joinField]
    · simp [h]

/-! ### Objects with their missing fields marked -/

/-- The fields of two objects merged. -/
def joinFields (mine incoming : List Field) : List Field :=
  mergeFields maxSamples incoming (markMissing mine incoming)

/-- Marking what is missing keeps the keys. -/
lemma keys_markMissing (mine incoming : List Field) : keys (markMissing mine incoming) = keys mine := by
  simp only [keys, markMissing, List.map_map]
  refine List.map_congr_left fun field _ => ?_
  dsimp only [Function.comp_apply]
  split <;> rfl

/-- A key is there exactly if it is among the keys. -/
lemma hasKey_iff {key : String} {fields : List Field} : hasKey key fields = true ↔ key ∈ keys fields := by
  simp [hasKey, keys]

/-- A field that the other object lacks is optional. -/
lemma find?_markMissing (mine incoming : List Field) (k : String) :
    find? k (markMissing mine incoming) =
      (find? k mine).map fun field => if k ∈ keys incoming then field else (true, field.2) := by
  induction mine with
  | nil => rfl
  | cons field mine ih =>
    obtain ⟨key, value⟩ := field
    rw [markMissing, List.map_cons, ← markMissing]
    by_cases h : key = k
    · subst h
      by_cases hkey : key ∈ keys incoming <;> simp [find?, hasKey_iff, hkey]
    · have : (if hasKey key incoming then (key, value) else (key, true, value.2)).1 ≠ k := by
        split <;> exact h
      simp [find?, h, this, ih]

variable {mine incoming : List Field}

/-- Joined fields have the keys of the first side and then the further ones of the other. -/
lemma keys_joinFields (hnodup : (keys incoming).Nodup) :
    keys (joinFields maxSamples mine incoming) =
      keys mine ++ (keys incoming).filter (· ∉ keys mine) := by
  rw [joinFields, keys_mergeFields _ hnodup, keys_markMissing]

/-- What stands under a key in the merged object depends on what stands there in either. -/
theorem find?_joinFields (hnodup : (keys incoming).Nodup) (k : String) :
    find? k (joinFields maxSamples mine incoming) =
      joinField maxSamples (find? k mine) (find? k incoming) := by
  rw [joinFields, find?_mergeFields _ hnodup, find?_markMissing]
  by_cases hkey : k ∈ keys incoming
  · obtain ⟨other, hother⟩ := Option.ne_none_iff_exists'.1 (mt find?_eq_none_iff.1 (not_not.2 hkey))
    rw [hother]
    cases find? k mine <;> simp [hkey, joinField]
  · rw [find?_eq_none_iff.2 hkey]
    cases find? k mine <;> simp [hkey, joinField]

/-- Fields with different keys have different keys after they are joined. -/
lemma nodup_keys_joinFields (hmine : (keys mine).Nodup) (hincoming : (keys incoming).Nodup) :
    (keys (joinFields maxSamples mine incoming)).Nodup := by
  rw [keys_joinFields _ hincoming]
  refine List.Nodup.append hmine (hincoming.filter _) fun key hkey hnew => ?_
  simpa [hkey] using (List.mem_filter.1 hnew).2

end Merge

end EntityDump.Shape
