import EntityDump.Json.Assembler
import EntityDump.Proofs.Json.Document
import Mathlib.Data.List.Sort
import Mathlib.Data.String.Basic
/-!
# Values with their fields in order

In a value that was read, the keys of every object are in ascending order and so none repeats (`Ordered`). An
assembler keeps this of the containers that are open (`ordered_push`), as long as what it takes as scalars
are scalars.
-/

namespace EntityDump.Json

/-- In every object the keys are in ascending order. -/
inductive Ordered : Json → Prop
  | null : Ordered .null
  | bool (b : Bool) : Ordered (.bool b)
  | number (n : Number) : Ordered (.number n)
  | string (s : String) : Ordered (.string s)
  | array {items : List Json} : (∀ item ∈ items, Ordered item) → Ordered (.array items)
  | object {fields : List (String × Json)} : (fields.map (·.1)).Pairwise (· < ·) →
      (∀ field ∈ fields, Ordered field.2) → Ordered (.object fields)

/-- The event could come from a text: a scalar is one. -/
def Event.Textual : Event → Prop
  | .scalar value => ∃ s : Scalar, value = s.toJson
  | _ => True

/-- Scalars are ordered. -/
lemma Scalar.ordered_toJson (s : Scalar) : s.toJson.Ordered := by
  cases s <;> constructor

/-! ### Fields -/

namespace Fields

variable {key : String} {value : Json} {fields : List (String × Json)}

/-- A field after an insertion is the one inserted or was there before. -/
lemma mem_insert {field : String × Json} (h : field ∈ insert key value fields) :
    field = (key, value) ∨ field ∈ fields := by
  induction fields with
  | nil => simpa [insert] using h
  | cons first fields ih =>
    obtain ⟨k, v⟩ := first
    unfold insert at h
    split at h
    · rcases List.mem_cons.1 h with rfl | h
      · exact .inl rfl
      · exact .inr (List.mem_cons_of_mem _ h)
    split at h
    · simpa using h
    · rcases List.mem_cons.1 h with rfl | h
      · exact .inr List.mem_cons_self
      · exact (ih h).imp id (List.mem_cons_of_mem _)

/-- A field that is inserted keeps the keys in order. -/
lemma pairwise_insert (h : (fields.map (·.1)).Pairwise (· < ·)) :
    ((insert key value fields).map (·.1)).Pairwise (· < ·) := by
  induction fields with
  | nil => simp [insert]
  | cons first fields ih =>
    obtain ⟨k, v⟩ := first
    rw [List.map_cons, List.pairwise_cons] at h
    obtain ⟨hk, hfields⟩ := h
    unfold insert
    split
    · next heq =>
      subst heq
      exact List.pairwise_cons.2 ⟨hk, hfields⟩
    split
    · next hlt =>
      refine List.pairwise_cons.2 ⟨fun k' hk' => ?_, List.pairwise_cons.2 ⟨hk, hfields⟩⟩
      rcases List.mem_cons.1 hk' with rfl | hk'
      · exact hlt
      · exact hlt.trans (hk k' hk')
    · next hne hlt =>
      refine List.pairwise_cons.2 ⟨fun k' hk' => ?_, ih hfields⟩
      obtain ⟨field, hfield, rfl⟩ := List.mem_map.1 hk'
      rcases mem_insert hfield with rfl | hfield
      · exact lt_of_le_of_ne (not_lt.1 hlt) (Ne.symm hne)
      · exact hk _ (List.mem_map_of_mem hfield)

/-- In an object whose keys are in order a field is found under its key. -/
lemma find?_of_mem (h : (fields.map (·.1)).Pairwise (· < ·)) (hmem : (key, value) ∈ fields) :
    find? key fields = some value := by
  induction fields with
  | nil => simp at hmem
  | cons first fields ih =>
    obtain ⟨k, v⟩ := first
    rw [List.map_cons, List.pairwise_cons] at h
    rcases List.mem_cons.1 hmem with heq | hmem
    · obtain ⟨rfl, rfl⟩ := Prod.mk.inj heq
      simp [find?]
    · have hne : k ≠ key := (h.1 key (List.mem_map_of_mem hmem)).ne
      rw [find?, if_neg hne]
      exact ih h.2 hmem

/-- What is found under a key is a field. -/
lemma mem_of_find? (h : find? key fields = some value) : (key, value) ∈ fields := by
  induction fields with
  | nil => cases h
  | cons first fields ih =>
    obtain ⟨k, v⟩ := first
    rw [find?] at h
    split at h
    · next hkey =>
      rw [hkey, Option.some.inj h]
      exact List.mem_cons_self
    · exact List.mem_cons_of_mem _ (ih h)

/-- Fields that are inserted one after another are in order. -/
lemma pairwise_ofList (fields : List (String × Json)) : ((ofList fields).map (·.1)).Pairwise (· < ·) := by
  have h : ∀ done : List (String × Json), (done.map (·.1)).Pairwise (· < ·) →
      ((fields.foldl (fun acc field => insert field.1 field.2 acc) done).map (·.1)).Pairwise (· < ·) := by
    induction fields with
    | nil => exact fun _ hdone => hdone
    | cons field fields ih => exact fun _ hdone => ih _ (pairwise_insert hdone)
  exact h [] List.Pairwise.nil

/-- In fields that are inserted one after another a field is found under its key if it was the last one with the key. -/
lemma mem_ofList_iff_find? :
    (key, value) ∈ ofList fields ↔ (fields.reverse.find? (·.1 = key)).map (·.2) = some value := by
  rw [← find?_ofList]
  exact ⟨find?_of_mem (pairwise_ofList fields), mem_of_find?⟩

/-- Where fields with one key have one value, all of them stay when they are inserted one after another. -/
lemma mem_ofList_iff (h : ∀ v v' : Json, (key, v) ∈ fields → (key, v') ∈ fields → v = v') :
    (key, value) ∈ ofList fields ↔ (key, value) ∈ fields := by
  rw [mem_ofList_iff_find?, Option.map_eq_some_iff]
  constructor
  · rintro ⟨field, hfield, rfl⟩
    obtain rfl : field.1 = key := by simpa using List.find?_some hfield
    exact List.mem_reverse.1 (List.mem_of_find?_eq_some hfield)
  · intro hmem
    obtain ⟨field, hfield⟩ : ∃ field, fields.reverse.find? (·.1 = key) = some field := by
      rw [← Option.isSome_iff_exists, List.find?_isSome]
      exact ⟨_, List.mem_reverse.2 hmem, decide_eq_true rfl⟩
    obtain rfl : field.1 = key := by simpa using List.find?_some hfield
    exact ⟨field, hfield, h _ _ (List.mem_reverse.1 (List.mem_of_find?_eq_some hfield)) hmem⟩

/-- Fields in order are known by which they are. -/
lemma ext_of_pairwise {fields' : List (String × Json)} (h : (fields.map (·.1)).Pairwise (· < ·))
    (h' : (fields'.map (·.1)).Pairwise (· < ·)) (hmem : ∀ field, field ∈ fields ↔ field ∈ fields') :
    fields = fields' := by
  rw [List.pairwise_map] at h h'
  have : Std.Irrefl fun field field' : String × Json => field.1 < field'.1 := ⟨fun field => lt_irrefl field.1⟩
  have : Std.Antisymm fun field field' : String × Json => field.1 < field'.1 :=
    ⟨fun _ _ hlt hgt => absurd hgt (lt_asymm hlt)⟩
  exact h.eq_of_mem_iff h' hmem

end Fields

/-! ### Assembling -/

namespace Assembler

/-- The containers that are open are in order. -/
def Ordered (a : Assembler) : Prop :=
  ∀ frame ∈ a.frames, (close frame).Ordered

variable {a : Assembler} {value : Json}

/-- An assembler stays ordered when an ordered value is complete, and what it gives is ordered. -/
lemma ordered_complete (h : a.Ordered) (hvalue : value.Ordered) :
    (a.complete value).1.Ordered ∧ ∀ v ∈ (a.complete value).2, v.Ordered := by
  obtain ⟨frames⟩ := a
  cases frames with
  | nil =>
    refine ⟨h, fun v hv => ?_⟩
    obtain rfl := Option.some.inj hv
    exact hvalue
  | cons frame rest =>
    obtain ⟨hframe, hrest⟩ := List.forall_mem_cons.1 h
    cases frame with
    | object fields key =>
      refine ⟨List.forall_mem_cons.2 ⟨?_, hrest⟩, by simp [complete]⟩
      cases hframe with
      | object hkeys hfields =>
        refine .object (Fields.pairwise_insert hkeys) fun field hfield => ?_
        rcases Fields.mem_insert hfield with rfl | hfield
        · exact hvalue
        · exact hfields field hfield
    | array reversed =>
      refine ⟨List.forall_mem_cons.2 ⟨?_, hrest⟩, by simp [complete]⟩
      cases hframe with
      | array hitems =>
        refine .array fun item hitem => ?_
        rw [List.reverse_cons, List.mem_append, List.mem_singleton] at hitem
        rcases hitem with hitem | rfl
        · exact hitems item hitem
        · exact hvalue

/-- An assembler stays ordered when its innermost container is complete, and what it gives is ordered. -/
lemma ordered_pop (h : a.Ordered) : a.pop.1.Ordered ∧ ∀ v ∈ a.pop.2, v.Ordered := by
  obtain ⟨frames⟩ := a
  cases frames with
  | nil => exact ⟨h, by simp [pop]⟩
  | cons frame rest =>
    obtain ⟨hframe, hrest⟩ := List.forall_mem_cons.1 h
    exact ordered_complete (a := ⟨rest⟩) hrest hframe

/-- An event from a text keeps what is open in order, and the value that it completes is in order. -/
theorem ordered_push (h : a.Ordered) {event : Event} (hevent : event.Textual) :
    (a.push event).1.Ordered ∧ ∀ v ∈ (a.push event).2, v.Ordered := by
  cases event with
  | objectStart =>
    exact ⟨List.forall_mem_cons.2 ⟨.object List.Pairwise.nil (by simp), h⟩, by simp [push]⟩
  | arrayStart => exact ⟨List.forall_mem_cons.2 ⟨.array (by simp), h⟩, by simp [push]⟩
  | objectEnd | arrayEnd => exact ordered_pop h
  | key name =>
    obtain ⟨frames⟩ := a
    match frames with
    | [] => exact ⟨h, by simp [push]⟩
    | .array _ :: _ => exact ⟨h, by simp [push]⟩
    | .object fields key :: rest =>
      obtain ⟨hframe, hrest⟩ := List.forall_mem_cons.1 h
      exact ⟨List.forall_mem_cons.2 ⟨hframe, hrest⟩, by simp [push]⟩
  | scalar value =>
    obtain ⟨s, rfl⟩ := hevent
    exact ordered_complete h s.ordered_toJson

end Assembler

end EntityDump.Json
