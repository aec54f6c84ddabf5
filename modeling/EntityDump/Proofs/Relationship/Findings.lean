import EntityDump.Join.RightIndex
import EntityDump.Path.Selection
import EntityDump.Proofs.Json.Ordered
import EntityDump.Relationship.IdField
/-!
# Where identifying values stand

A finding has the path at which its value stands, and selecting by this path gives the value back: it joins under
the text that was found (`select_of_mem_findings`). The walk through an element finds something at each of its
scalars that identifies something under the last key before it, and nothing else (`findings_eq`).
-/

namespace EntityDump

/-- Every key inside the value, at any depth, has the property. -/
inductive Json.EveryKey (p : String → Prop) : Json → Prop
  | null : EveryKey p .null
  | bool (b : Bool) : EveryKey p (.bool b)
  | number (n : Json.Number) : EveryKey p (.number n)
  | string (s : String) : EveryKey p (.string s)
  | array {items : List Json} : (∀ item ∈ items, EveryKey p item) → EveryKey p (.array items)
  | object {fields : List (String × Json)} : (∀ field ∈ fields, p field.1) →
      (∀ field ∈ fields, EveryKey p field.2) → EveryKey p (.object fields)

/-! ### Selecting what was found -/

namespace Finding

variable {p : String → Prop} {path : List Segment} {key : Option String} {value : Json} {f : Finding}

/-- What is found in items is found in one of them, behind a wildcard. -/
lemma mem_inItems {items : List Json} (h : f ∈ inItems path key items) :
    ∃ item ∈ items, f ∈ inValue path key item := by
  induction items with
  | nil => simp [inItems] at h
  | cons item items ih =>
    rw [inItems, List.mem_append] at h
    rcases h with h | h
    · exact ⟨item, List.mem_cons_self, h⟩
    · obtain ⟨item, hitem, h⟩ := ih h
      exact ⟨item, List.mem_cons_of_mem _ hitem, h⟩

/-- What is found in fields is found in the value of one of them, behind its key. -/
lemma mem_inFields {fields : List (String × Json)} (h : f ∈ inFields path fields) :
    ∃ field ∈ fields, f ∈ inValue (.key field.1 :: path) (some field.1) field.2 := by
  induction fields with
  | nil => simp [inFields] at h
  | cons field fields ih =>
    obtain ⟨name, value⟩ := field
    rw [inFields, List.mem_append] at h
    rcases h with h | h
    · exact ⟨(name, value), List.mem_cons_self, h⟩
    · obtain ⟨field, hfield, h⟩ := ih h
      exact ⟨field, List.mem_cons_of_mem _ hfield, h⟩

/-- A segment of a path to an identifying value: a key with the property, or a wildcard. -/
def Step (p : String → Prop) : Segment → Prop
  | .key name => p name
  | .wildcard => True
  | .index _ => False

/-- A finding in a value stands there behind the path that leads to the value, and selecting by the rest of its
path gives the value found. -/
structure StandsIn (p : String → Prop) (path : List Segment) (value : Json) (f : Finding)
    (rest : List Segment) : Prop where
  segments : f.segments = path.reverse ++ rest
  steps : ∀ segment ∈ rest, Step p segment
  selects : ∃ leaf ∈ Path.selectFrom rest [value], joinKey? leaf = some f.value

/-- What is found at a scalar stands there. -/
lemma standsIn_ofScalar (hkey : ∀ text, identifying? key value = some text → joinKey? value = some text)
    (h : f ∈ ofScalar path key value) : StandsIn p path value f [] := by
  unfold ofScalar at h
  split at h
  · next text htext =>
    obtain rfl := List.mem_singleton.1 h
    exact ⟨(List.append_nil _).symm, by simp, value, by simp [Path.selectFrom], hkey text htext⟩
  · simp at h

/-- One step down from a value. -/
lemma StandsIn.cons {segment : Segment} {rest : List Segment} {child : Json}
    (h : StandsIn p (segment :: path) child f rest) (hsegment : Step p segment)
    (hchild : child ∈ segment.children value) : StandsIn p path value f (segment :: rest) := by
  refine ⟨by simp [h.segments], List.forall_mem_cons.2 ⟨hsegment, h.steps⟩, ?_⟩
  obtain ⟨leaf, hleaf, hjoin⟩ := h.selects
  refine ⟨leaf, ?_, hjoin⟩
  rw [Path.selectFrom_cons, List.flatMap_singleton, Path.selectFrom_eq_flatMap]
  exact List.mem_flatMap.2 ⟨child, hchild, hleaf⟩

/-- Whatever is found in a value stands in it. -/
theorem exists_standsIn (hordered : value.Ordered) (hkeys : value.EveryKey p)
    (h : f ∈ inValue path key value) : ∃ rest, StandsIn p path value f rest := by
  induction hordered generalizing path key with
  | null | bool => exact ⟨[], standsIn_ofScalar (by simp [identifying?]) h⟩
  | number n =>
    refine ⟨[], standsIn_ofScalar (fun text htext => ?_) h⟩
    obtain ⟨-, rfl⟩ : _ ∧ n.text = text := by simpa [identifying?] using htext
    rfl
  | string s =>
    refine ⟨[], standsIn_ofScalar (fun text htext => ?_) h⟩
    obtain ⟨-, rfl⟩ : _ ∧ s = text := by simpa [identifying?] using htext
    rfl
  | @array items hitems ih =>
    obtain ⟨item, hitem, hf⟩ := mem_inItems h
    cases hkeys with
    | array hkeys =>
      obtain ⟨rest, hrest⟩ := ih item hitem (hkeys item hitem) hf
      exact ⟨.wildcard :: rest, hrest.cons trivial hitem⟩
  | @object fields hfields _ ih =>
    obtain ⟨⟨name, value⟩, hfield, hf⟩ := mem_inFields h
    cases hkeys with
    | object hnames hvalues =>
      obtain ⟨rest, hrest⟩ := ih _ hfield (hvalues _ hfield) hf
      refine ⟨.key name :: rest, hrest.cons (hnames _ hfield) ?_⟩
      simp [Segment.children, Json.Fields.find?_of_mem hfields hfield]

/-- The path of a finding selects what was found. -/
theorem select_of_mem_findings {element : Json} (hordered : element.Ordered) (hkeys : element.EveryKey p)
    (h : f ∈ element.findings) :
    (∀ segment ∈ f.segments, Step p segment) ∧
      f.value ∈ joinKeys (Path.ofSegments f.segments) element := by
  obtain ⟨rest, hrest⟩ := exists_standsIn hordered hkeys h
  obtain rfl : f.segments = rest := hrest.segments
  obtain ⟨leaf, hleaf, hjoin⟩ := hrest.selects
  exact ⟨hrest.steps, List.mem_filterMap.2 ⟨leaf, hleaf, hjoin⟩⟩

end Finding

/-! ### Scalars -/

mutual

/-- The scalars inside a value in order, each with the segments that lead to it. -/
def Json.scalars : Json → List (List Segment × Json)
  | .object fields => Json.scalarsInFields fields
  | .array items => Json.scalarsInItems items
  | scalar => [([], scalar)]

/-- The scalars in the items of an array. -/
def Json.scalarsInItems : List Json → List (List Segment × Json)
  | [] => []
  | item :: rest => item.scalars.map (fun s => (.wildcard :: s.1, s.2)) ++ Json.scalarsInItems rest

/-- The scalars in the fields of an object. -/
def Json.scalarsInFields : List (String × Json) → List (List Segment × Json)
  | [] => []
  | (name, value) :: rest =>
    value.scalars.map (fun s => (.key name :: s.1, s.2)) ++ Json.scalarsInFields rest

end

/-- The last key of a path. -/
def nearestKey (segments : List Segment) : Option String :=
  (segments.filterMap fun
    | .key name => some name
    | _ => none).getLast?

/-- A key is the last one if none follows. -/
lemma nearestKey_key (name : String) (segments : List Segment) :
    nearestKey (.key name :: segments) = (nearestKey segments).or (some name) := by
  unfold nearestKey
  rw [List.filterMap_cons, List.getLast?_cons]
  cases (List.filterMap _ segments).getLast? <;> rfl

/-- A wildcard does not change which key is the last. -/
lemma nearestKey_wildcard (segments : List Segment) :
    nearestKey (.wildcard :: segments) = nearestKey segments := rfl

namespace Finding

/-- What is found at a scalar behind some segments, the last key being given. At the top nothing is found. -/
def at? (segments : List Segment) (key : Option String) (scalar : Json) : Option Finding :=
  if segments = [] then none else (identifying? key scalar).map (⟨segments, ·⟩)

/-- What is found at a scalar inside a value, which itself stands at a path behind a key. -/
def inside? (path : List Segment) (key : Option String) (s : List Segment × Json) : Option Finding :=
  at? (path.reverse ++ s.1) ((nearestKey s.1).or key) s.2

section Walk

variable (path : List Segment) (key : Option String)

/-- At a scalar is found what it gives by itself. -/
lemma ofScalar_eq (scalar : Json) :
    ofScalar path key scalar = [([], scalar)].filterMap (inside? path key) := by
  have hinside : inside? path key ([], scalar) = at? path.reverse key scalar := by
    simp [inside?, nearestKey]
  rw [List.filterMap_cons, List.filterMap_nil, hinside]
  cases path with
  | nil => rfl
  | cons segment path =>
    have hne : (segment :: path).reverse ≠ [] := by simp
    unfold ofScalar at?
    rw [if_neg hne]
    cases identifying? key scalar with
    | none => rfl
    | some text => rfl

/-- Inside a field the last key is its name, unless there is another one behind it. -/
lemma inside?_key (name : String) (s : List Segment × Json) :
    inside? path key (.key name :: s.1, s.2) = inside? (.key name :: path) (some name) s := by
  unfold inside?
  rw [nearestKey_key, Option.or_assoc]
  simp

/-- Inside an item the last key is that of the array. -/
lemma inside?_wildcard (s : List Segment × Json) :
    inside? path key (.wildcard :: s.1, s.2) = inside? (.wildcard :: path) key s := by
  unfold inside?
  rw [nearestKey_wildcard]
  simp

mutual

/-- In a value is found what its scalars give, in order. -/
lemma inValue_eq (path : List Segment) (key : Option String) (value : Json) :
    inValue path key value = value.scalars.filterMap (inside? path key) :=
  match value with
  | .object fields => by rw [inValue, Json.scalars, inFields_eq path key]
  | .array items => by rw [inValue, Json.scalars, inItems_eq]
  | .null | .bool _ | .number _ | .string _ => by rw [inValue, Json.scalars, ofScalar_eq] <;> simp

/-- In items is found what their scalars give, in order. -/
lemma inItems_eq (path : List Segment) (key : Option String) (items : List Json) :
    inItems (.wildcard :: path) key items = (Json.scalarsInItems items).filterMap (inside? path key) :=
  match items with
  | [] => rfl
  | item :: rest => by
    rw [inItems, Json.scalarsInItems, List.filterMap_append, List.filterMap_map, inValue_eq, inItems_eq]
    congr 2
    funext s
    exact (inside?_wildcard path key s).symm

/-- In fields is found what their scalars give, in order. -/
lemma inFields_eq (path : List Segment) (key : Option String) (fields : List (String × Json)) :
    inFields path fields = (Json.scalarsInFields fields).filterMap (inside? path key) :=
  match fields with
  | [] => rfl
  | (name, value) :: rest => by
    rw [inFields, Json.scalarsInFields, List.filterMap_append, List.filterMap_map, inValue_eq,
      inFields_eq path key]
    congr 2
    funext s
    exact (inside?_key path key name s).symm

end

end Walk

/-- The findings of an element are those at its scalars. -/
theorem findings_eq (element : Json) :
    element.findings = element.scalars.filterMap fun s => at? s.1 (nearestKey s.1) s.2 := by
  rw [Json.findings, inValue_eq]
  congr 1
  funext s
  rw [inside?, Option.or_none]
  rfl

end Finding

end EntityDump
