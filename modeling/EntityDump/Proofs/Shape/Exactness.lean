import EntityDump.Proofs.Shape.Inference
import EntityDump.Proofs.Shape.Normal
import Mathlib.Order.Bounds.Basic
/-!
# What a shape says of a document

A position is a way down from the root, by keys of objects and into the items of arrays. A document may have
many values at one position, and its shape has one node for all of them: there is a node exactly where there
are values, and what it says of them is neither too much nor too little (`reports_of_pushAll`).

The node of a merged shape at a position is the merge of the nodes there (`nodeAt?_merge`), and a merged node
says of all values what its parts say of theirs (`Reports.merge`). So what has to be looked at is a
single document, with all that lies below it already known.
-/

namespace EntityDump

open Json (Document)
open Json.Fields (find?)

/-- A step down: to what stands under a key, or to the items. -/
inductive Step where
  | key (name : String)
  | item

/-- The kind of values that a step leads down from. -/
def Step.kind : Step → ShapeKind
  | key _ => .object
  | item => .array

namespace Json.Document

/-- The kind of the value. -/
def kind : Document → ShapeKind
  | .scalar .null => .null
  | .scalar (.bool _) => .boolean
  | .scalar (.number _) => .number
  | .scalar (.string _) => .string
  | .array _ => .array
  | .object _ => .object

/-- Values of the kind of objects are objects. -/
lemma exists_object_of_kind {d : Document} (h : d.kind = .object) : ∃ fields, d = .object fields := by
  cases d with
  | object fields => exact ⟨fields, rfl⟩
  | scalar s => cases s <;> cases h
  | array items => cases h

/-- Values of the kind of arrays are arrays. -/
lemma exists_array_of_kind {d : Document} (h : d.kind = .array) : ∃ items, d = .array items := by
  cases d with
  | array items => exact ⟨items, rfl⟩
  | scalar s => cases s <;> cases h
  | object fields => cases h

/-- The values one step down. -/
def children : Step → Document → List Document
  | .key name, .object fields => (fields.filter (·.1 = name)).map (·.2)
  | .item, .array items => items
  | _, _ => []

/-- The values at a position, in the order of the text. -/
def valuesAt : List Step → Document → List Document
  | [], d => [d]
  | step :: path, d => (d.children step).flatMap (valuesAt path)

end Json.Document

namespace Shape

/-- The node one step down from a member. -/
def down : Step → Shape → Option Shape
  | .key name, .object fields _ => (find? name fields).map (·.2)
  | .item, .array _ _ items _ => items
  | _, _ => none

/-- The node one step down. -/
def child? (step : Step) (s : Shape) : Option Shape :=
  (s.member? step.kind).bind (down step)

/-- The node at a position. -/
def nodeAt? : List Step → Shape → Option Shape
  | [], s => some s
  | step :: path, s => (s.child? step).bind (nodeAt? path)

/-! ### What is to be said -/

section Seen

variable (key : String) (seen : List Document)

/-- Some object has the key. -/
def Has : Prop :=
  ∃ fields, Document.object fields ∈ seen ∧ key ∈ fields.map (·.1)

/-- Some object lacks the key. -/
def Lacks : Prop :=
  ∃ fields, Document.object fields ∈ seen ∧ key ∉ fields.map (·.1)

/-- The lengths of the arrays. -/
def lengths : Set Nat :=
  {n | ∃ items, Document.array items ∈ seen ∧ items.length = n}

end Seen

/-- What a member says of the values of its kind: of objects the keys and which of them are optional, of
arrays the range of lengths, of numbers whether all are whole numbers. -/
def Describes : Shape → List Document → Prop
  | .object fields _, seen =>
    (∀ key, key ∈ keys fields ↔ Has key seen) ∧
      ∀ key optional node, (key, optional, node) ∈ fields → (optional = true ↔ Lacks key seen)
  | .array minLen maxLen _ _, seen => IsLeast (lengths seen) minLen ∧ IsGreatest (lengths seen) maxLen
  | .number _ _ integer, seen =>
    integer = true ↔ ∀ n, Document.scalar (.number n) ∈ seen → n.isInt = true
  | _, _ => True

/-- A node has a member for each kind of values seen, and each says what is so. -/
structure Exact (node : Shape) (seen : List Document) : Prop where
  kinds : ∀ k, k ∈ node.members.map kind ↔ k ∈ seen.map Document.kind
  describes : ∀ m ∈ node.members, Describes m seen

/-- There is a node if something was seen, and the node is exact. -/
structure Reports (node? : Option Shape) (seen : List Document) : Prop where
  isSome : node?.isSome = true ↔ seen ≠ []
  exact : ∀ node ∈ node?, Exact node seen

variable {options : ShapeOptions} {bound : Float → Prop} {depth : Nat} {a b m x y : Shape}
  {seen seen' vs ws : List Document} {key : String} {step : Step}

/-! ### Values seen in two places -/

/-- Some object of two collections has a key if one in either has it. -/
lemma has_append : Has key (vs ++ ws) ↔ Has key vs ∨ Has key ws := by
  simp only [Has, List.mem_append, or_and_right, exists_or]

/-- Some object of two collections lacks a key if one in either lacks it. -/
lemma lacks_append : Lacks key (vs ++ ws) ↔ Lacks key vs ∨ Lacks key ws := by
  simp only [Lacks, List.mem_append, or_and_right, exists_or]

/-- The lengths in two collections are those of either. -/
lemma lengths_append : lengths (vs ++ ws) = lengths vs ∪ lengths ws := by
  ext n
  simp only [lengths, List.mem_append, or_and_right, exists_or, Set.mem_union, Set.mem_ofPred_eq]

/-- Where there are objects and none has the key, some lacks it. -/
lemma lacks_of_not_has (hkind : ShapeKind.object ∈ seen.map Document.kind) (h : ¬ Has key seen) :
    Lacks key seen := by
  obtain ⟨d, hd, hkind⟩ := List.mem_map.1 hkind
  obtain ⟨fields, rfl⟩ := Document.exists_object_of_kind hkind
  exact ⟨fields, hd, fun hkey => h ⟨fields, hd, hkey⟩⟩

/-- What a member says depends on the values of its kind alone. -/
lemma Describes.congr (hm : Describes m seen)
    (h : ∀ d, d.kind = m.kind → (d ∈ seen ↔ d ∈ seen')) : Describes m seen' := by
  cases m with
  | object fields cut => simpa only [Describes, Has, Lacks, h (.object _) rfl] using hm
  | array minLen maxLen items cut => simpa only [Describes, lengths, h (.array _) rfl] using hm
  | number min max integer => simpa only [Describes, h (.scalar (.number _)) rfl] using hm
  | _ => trivial

/-! ### Merging members -/

/-- Joined fields describe the objects of both sides, where both have some. -/
lemma describes_joinFields {fields mine : List Field} {cut : Bool} (hfields : (keys fields).Nodup)
    (hmine : (keys mine).Nodup) (hx : Describes (.object mine cut) vs)
    (hy : Describes (.object fields cut) ws) (hvs : ShapeKind.object ∈ vs.map Document.kind)
    (hws : ShapeKind.object ∈ ws.map Document.kind) :
    Describes (.object (joinFields options.maxSamples mine fields) cut) (vs ++ ws) := by
  refine ⟨fun key => ?_, fun key optional node hmem => ?_⟩
  · rw [keys_joinFields _ hfields, has_append, ← hx.1, ← hy.1, List.mem_append, List.mem_filter]
    by_cases hkey : key ∈ keys mine <;> simp [hkey]
  have hfind := find?_eq_some_of_mem (nodup_keys_joinFields _ hmine hfields) hmem
  rw [find?_joinFields _ hfields] at hfind
  rw [lacks_append]
  rcases of_joinField_eq_some _ hfind with
    ⟨ours, hleft, hright, hvalue⟩ | ⟨theirs, hleft, hright, hvalue⟩ | ⟨ours, theirs, hleft, hright, hvalue⟩
  · obtain rfl : optional = true := congrArg Prod.fst hvalue
    have hlacks := lacks_of_not_has hws (mt (hy.1 key).2 (find?_eq_none_iff.1 hright))
    exact iff_of_true rfl (.inr hlacks)
  · obtain rfl : optional = true := congrArg Prod.fst hvalue
    have hlacks := lacks_of_not_has hvs (mt (hx.1 key).2 (find?_eq_none_iff.1 hleft))
    exact iff_of_true rfl (.inl hlacks)
  · obtain rfl : optional = (ours.1 || theirs.1) := congrArg Prod.fst hvalue
    have hours := hx.2 key ours.1 ours.2 (mem_of_find?_eq_some hleft)
    have htheirs := hy.2 key theirs.1 theirs.2 (mem_of_find?_eq_some hright)
    rw [Bool.or_eq_true, hours, htheirs]

/-- Members of one kind say together what each says of its values. -/
lemma describes_mergeSame (hx : Normal options bound depth x) (hy : Normal options bound depth y)
    (hkind : y.kind = x.kind) (hvs : x.kind ∈ vs.map Document.kind)
    (hws : x.kind ∈ ws.map Document.kind) (hdx : Describes x vs) (hdy : Describes y ws) :
    Describes (mergeSame options.maxSamples y x) (vs ++ ws) := by
  cases hx with
  | object hcut hmineCut hmine _ =>
    cases y <;> cases hkind
    cases hy with
    | object hcut' hfieldsCut hfields _ =>
      subst hcut hcut'
      rw [mergeSame_object_of_cut _ hfieldsCut hmineCut]
      exact describes_joinFields hfields hmine hdx hdy hvs hws
  | array =>
    cases y <;> cases hkind
    rw [mergeSame_array, Describes, lengths_append]
    exact ⟨hdx.1.union hdy.1, hdx.2.union hdy.2⟩
  | number =>
    cases y <;> cases hkind
    rw [Describes] at hdx hdy
    change (_ && _) = true ↔ _
    rw [Bool.and_eq_true, hdx, hdy]
    simp only [List.mem_append, or_imp, forall_and]
  | union =>
    cases y <;> cases hkind
    trivial
  | string | boolean | null =>
    cases y <;> cases hkind
    trivial

/-- A merged node is exact of all the values that its parts are exact of. -/
theorem Exact.merge (ha : Normal options bound depth a) (hb : Normal options bound depth b)
    (hvs : Exact a vs) (hws : Exact b ws) : Exact (a.merge options.maxSamples b) (vs ++ ws) := by
  have hmerged := ha.regular.merge options.maxSamples hb.regular
  refine ⟨fun k => ?_, fun m hm => ?_⟩
  · rw [kind_mem_merge _ ha.regular hb.regular, hvs.kinds, hws.kinds, List.map_append, List.mem_append]
  have hmember := hmerged.member?_eq_some_iff.2 ⟨hm, rfl⟩
  rw [member?_merge _ ha.regular hb.regular] at hmember
  rcases Option.merge_eq_some_iff.1 hmember with ⟨hx, hnone⟩ | ⟨hnone, hy⟩ | ⟨x, y, hx, hy, rfl⟩
  · obtain ⟨hx, -⟩ := ha.regular.member?_eq_some_iff.1 hx
    refine (hvs.describes m hx).congr fun d hd => ?_
    have hd' : d ∉ ws := fun hmem =>
      memberOf?_eq_none_iff.1 hnone ((hws.kinds _).2 (hd ▸ List.mem_map_of_mem hmem))
    rw [List.mem_append, or_iff_left hd']
  · obtain ⟨hy, -⟩ := hb.regular.member?_eq_some_iff.1 hy
    refine (hws.describes m hy).congr fun d hd => ?_
    have hd' : d ∉ vs := fun hmem =>
      memberOf?_eq_none_iff.1 hnone ((hvs.kinds _).2 (hd ▸ List.mem_map_of_mem hmem))
    rw [List.mem_append, or_iff_right hd']
  · obtain ⟨hx, hxkind⟩ := ha.regular.member?_eq_some_iff.1 hx
    obtain ⟨hy, hykind⟩ := hb.regular.member?_eq_some_iff.1 hy
    have hkind : y.kind = x.kind := hykind.trans hxkind.symm
    rw [merge_of_kind_eq _ hkind (ha.regular.members.ne_union x hx)]
    exact describes_mergeSame (ha.of_mem_members hx) (hb.of_mem_members hy) hkind
      ((hvs.kinds _).1 (List.mem_map_of_mem hx)) ((hws.kinds _).1 (hkind ▸ List.mem_map_of_mem hy))
      (hvs.describes x hx) (hws.describes y hy)

/-- Nodes that may not be there report together what each reports. -/
theorem Reports.merge {x y : Option Shape} (hx : ∀ node ∈ x, Normal options bound depth node)
    (hy : ∀ node ∈ y, Normal options bound depth node) (hvs : Reports x vs) (hws : Reports y ws) :
    Reports (Option.merge (Shape.merge options.maxSamples) x y) (vs ++ ws) := by
  have hempty : ∀ {seen : List Document}, Reports none seen → seen = [] := fun h => by
    simpa using h.isSome
  cases x with
  | none =>
    rw [hempty hvs]
    cases y <;> exact hws
  | some a =>
    cases y with
    | none =>
      rw [hempty hws, List.append_nil]
      exact hvs
    | some b =>
      have hne : vs ≠ [] := hvs.isSome.1 rfl
      refine ⟨iff_of_true rfl (by simp [hne]), fun node hnode => ?_⟩
      obtain rfl := Option.some.inj hnode
      exact (hvs.exact a rfl).merge (hx a rfl) (hy b rfl) (hws.exact b rfl)

/-! ### Going down -/

/-- The node one step down from a normal member is normal, one level deeper. -/
lemma Normal.down (hx : Normal options bound depth x) :
    ∀ node ∈ down step x, Normal options bound (depth + 1) node := by
  intro node hnode
  cases step with
  | key name =>
    cases hx with
    | object _ _ _ hfields =>
      obtain ⟨field, hfield, rfl⟩ := Option.map_eq_some_iff.1 hnode
      exact hfields (name, field) (mem_of_find?_eq_some hfield)
    | _ => cases hnode
  | item =>
    cases hx with
    | array _ _ _ hitems => exact hitems node hnode
    | _ => cases hnode

/-- The node one step down from a normal shape is normal, one level deeper. -/
lemma Normal.child? (ha : Normal options bound depth a) :
    ∀ node ∈ a.child? step, Normal options bound (depth + 1) node := by
  intro node hnode
  obtain ⟨m, hm, hnode⟩ := Option.bind_eq_some_iff.1 hnode
  exact (ha.of_member? hm).down node hnode

/-- One step down from the merge of two members of a kind is the merge of the nodes there. -/
lemma down_mergeSame (hx : Normal options bound depth x) (hy : Normal options bound depth y)
    (hxkind : x.kind = step.kind) (hykind : y.kind = step.kind) :
    down step (mergeSame options.maxSamples y x) =
      Option.merge (Shape.merge options.maxSamples) (down step x) (down step y) := by
  cases step with
  | key name =>
    cases x <;> cases hxkind
    cases y <;> cases hykind
    cases hx with
    | object hcut hmineCut _ _ =>
    cases hy with
    | object hcut' hfieldsCut hfields _ =>
    subst hcut hcut'
    rw [mergeSame_object_of_cut _ hfieldsCut hmineCut, down, find?_joinFields _ hfields, down, down]
    cases find? name _ <;> cases find? name _ <;> rfl
  | item =>
    cases x <;> cases hxkind
    cases y <;> cases hykind
    rw [mergeSame_array]
    rfl

/-- One step down from a merged node are the nodes merged that are one step down. -/
lemma child?_merge (ha : Normal options bound depth a) (hb : Normal options bound depth b) :
    (a.merge options.maxSamples b).child? step =
      Option.merge (Shape.merge options.maxSamples) (a.child? step) (b.child? step) := by
  rw [child?, member?_merge _ ha.regular hb.regular, child?, child?]
  cases hx : a.member? step.kind with
  | none => cases b.member? step.kind <;> simp
  | some x =>
    cases hy : b.member? step.kind with
    | none => simp
    | some y =>
      have hxkind := (ha.regular.member?_eq_some_iff.1 hx).2
      have hykind := (hb.regular.member?_eq_some_iff.1 hy).2
      have hunion : x.kind ≠ .union := hxkind ▸ by cases step <;> simp [Step.kind]
      simp only [Option.merge_some_some, Option.bind_some]
      rw [merge_of_kind_eq _ (hykind.trans hxkind.symm) hunion]
      exact down_mergeSame (ha.of_member? hx) (hb.of_member? hy) hxkind hykind

/-- At any position of a merged shape stands the merge of what stands there in either. -/
theorem nodeAt?_merge (ha : Normal options bound depth a) (hb : Normal options bound depth b)
    (path : List Step) :
    (a.merge options.maxSamples b).nodeAt? path =
      Option.merge (Shape.merge options.maxSamples) (a.nodeAt? path) (b.nodeAt? path) := by
  induction path generalizing a b depth with
  | nil => rfl
  | cons step path ih =>
    rw [nodeAt?, child?_merge ha hb, nodeAt?, nodeAt?]
    have hx : ∀ node ∈ a.child? step, Normal options bound (depth + 1) node := ha.child?
    have hy : ∀ node ∈ b.child? step, Normal options bound (depth + 1) node := hb.child?
    cases hleft : a.child? step with
    | none => cases b.child? step <;> simp
    | some x =>
      cases hright : b.child? step with
      | none => simp
      | some y => exact ih (hx x hleft) (hy y hright)

/-- The node at a position of a normal shape is normal, as deep as the position is long. -/
lemma Normal.nodeAt? (ha : Normal options bound depth a) (path : List Step) :
    ∀ node ∈ a.nodeAt? path, Normal options bound (depth + path.length) node := by
  induction path generalizing a depth with
  | nil =>
    intro node hnode
    obtain rfl := Option.some.inj hnode
    exact ha
  | cons step path ih =>
    intro node hnode
    obtain ⟨x, hx, hnode⟩ := Option.bind_eq_some_iff.1 hnode
    rw [List.length_cons, Nat.add_comm path.length, ← Nat.add_assoc]
    exact ih (ha.child? x hx) node hnode

end Shape

namespace Json.Document

open Shape

variable {options : ShapeOptions} {bound : Float → Prop} {depth : Nat} {ds : List Document}
  {fields : List (String × Document)}

/-! ### A single document -/

/-- The shapes of items are found one by one. -/
lemma itemShapes_eq_map (items : List Document) :
    itemShapes options depth items = items.map (shape options depth) := by
  induction items with
  | nil => rfl
  | cons item items ih => rw [itemShapes, ih, List.map_cons]

/-- Under a key stand the shapes of the values that have it. -/
lemma under_fieldShapes (key : String) (fields : List (String × Document)) :
    under key (fieldShapes options depth fields) =
      (children (.key key) (.object fields)).map (shape options depth) := by
  induction fields with
  | nil => rfl
  | cons field fields ih =>
    obtain ⟨k, d⟩ := field
    by_cases h : k = key <;> simp_all [fieldShapes, under, children]

/-- The shapes of fields stand under the keys of the fields. -/
lemma map_fst_fieldShapes (fields : List (String × Document)) :
    (fieldShapes options depth fields).map (·.1) = fields.map (·.1) := by
  induction fields with
  | nil => rfl
  | cons field fields ih =>
    obtain ⟨key, d⟩ := field
    rw [fieldShapes, List.map_cons, ih, List.map_cons]

/-- Normal shapes merge to a normal one. -/
lemma normal_mergeAll {shapes : List Shape} (h : ∀ s ∈ shapes, Normal options bound depth s) :
    ∀ s ∈ mergeAll options.maxSamples shapes, Normal options bound depth s := by
  induction shapes using List.reverseRecOn with
  | nil => simp [mergeAll]
  | append_singleton shapes s ih =>
    simp only [List.mem_append, List.mem_singleton, or_imp, forall_and, forall_eq] at h
    have hbefore := ih h.1
    intro merged hmerged
    rw [mergeAll_concat] at hmerged
    obtain rfl := Option.some.inj hmerged
    cases hmine : mergeAll options.maxSamples shapes with
    | none => exact h.2
    | some mine => exact (hbefore mine hmine).merge h.2

/-- The shape of a document is normal. -/
theorem normal_shape (d : Document) : Normal options (fun _ => True) depth (d.shape options depth) := by
  -- By induction on the document, at every depth: the depth alone decides what is cut off.
  induction d using Document.induction generalizing depth with
  | scalar s => exact Normal.scalarShape fun _ _ => trivial
  | array items ih =>
    rw [shape]
    split
    · next hdepth =>
      refine .array (decide_eq_false (Nat.not_lt.2 hdepth)).symm (by simp) (Nat.le_refl _) ?_
      refine normal_mergeAll fun s hs => ?_
      rw [itemShapes_eq_map] at hs
      obtain ⟨item, hitem, rfl⟩ := List.mem_map.1 hs
      exact ih item hitem
    · next hdepth =>
      exact .array (decide_eq_true (Nat.not_le.1 hdepth)).symm (fun _ => rfl) (Nat.le_refl _) (by simp)
  | object fields ih =>
    rw [shape]
    split
    · next hdepth =>
      refine .object (decide_eq_false (Nat.not_lt.2 hdepth)).symm (by simp) nodup_keys_fieldsOf ?_
      rintro ⟨key, value⟩ hfield
      have hfind := find?_eq_some_of_mem nodup_keys_fieldsOf hfield
      rw [find?_fieldsOf] at hfind
      obtain ⟨node, hnode, rfl⟩ := Option.map_eq_some_iff.1 hfind
      refine normal_mergeAll (fun s hs => ?_) node hnode
      rw [under_fieldShapes] at hs
      obtain ⟨d, hd, rfl⟩ := List.mem_map.1 hs
      obtain ⟨field, hfield, rfl⟩ := List.mem_map.1 hd
      exact ih field (List.mem_filter.1 hfield).1
    · next hdepth =>
      exact .object (decide_eq_true (Nat.not_le.1 hdepth)).symm (fun _ => rfl) List.nodup_nil (by simp)

/-- What is known of documents one by one is known of all of them and the merge of their shapes. -/
lemma reports_mergeAll {path : List Step}
    (h : ∀ d ∈ ds, Reports ((d.shape options depth).nodeAt? path) (d.valuesAt path)) :
    Reports ((mergeAll options.maxSamples (ds.map (shape options depth))).bind (nodeAt? path))
      (ds.flatMap (valuesAt path)) := by
  induction ds using List.reverseRecOn with
  | nil => exact ⟨by simp [mergeAll], by simp [mergeAll]⟩
  | append_singleton ds d ih =>
    simp only [List.mem_append, List.mem_singleton, or_imp, forall_and, forall_eq] at h
    have hbefore := ih h.1
    have hnormal : ∀ s ∈ mergeAll options.maxSamples (ds.map (shape options depth)),
        Normal options (fun _ => True) depth s := normal_mergeAll fun s hs => by
      obtain ⟨d, -, rfl⟩ := List.mem_map.1 hs
      exact d.normal_shape
    have hd : Normal options (fun _ => True) depth (d.shape options depth) := d.normal_shape
    rw [List.map_append, List.map_singleton, mergeAll_concat, List.flatMap_append, List.flatMap_singleton]
    cases hmine : mergeAll options.maxSamples (ds.map (shape options depth)) with
    | none =>
      rw [hmine] at hbefore
      have hempty : ds.flatMap (valuesAt path) = [] := by simpa using hbefore.isSome
      rw [hempty]
      exact h.2
    | some mine =>
      rw [hmine] at hbefore hnormal
      have hmerged := hbefore.merge ((hnormal mine rfl).nodeAt? path) (hd.nodeAt? path) h.2
      rwa [← nodeAt?_merge (hnormal mine rfl) hd] at hmerged

/-- No single value is of the kind of unions. -/
lemma kind_ne_union (d : Document) : d.kind ≠ .union := by
  unfold kind
  split <;> simp

/-- The shape of a value is of the kind of the value. -/
lemma kind_shape (d : Document) : (d.shape options depth).kind = d.kind := by
  cases d with
  | scalar s =>
    rw [shape]
    cases s with
    | string s =>
      unfold Scalar.toJson ShapeBuilder.scalarShape
      dsimp only
      split <;> rfl
    | _ => rfl
  | array items =>
    rw [shape]
    split <;> rfl
  | object fields =>
    rw [shape]
    split <;> rfl

/-- The keys of the fields of an object are its keys, and none is optional. -/
lemma describes_fieldsOf (fields : List (String × Document)) (cut : Bool) :
    Describes (.object (fieldsOf options.maxSamples (fieldShapes options depth fields)) cut)
      [.object fields] := by
  have hkeys : ∀ key, key ∈ keys (fieldsOf options.maxSamples (fieldShapes options depth fields)) ↔
      key ∈ fields.map (·.1) := fun key => by
    rw [keys_fieldsOf, List.mem_eraseDups, map_fst_fieldShapes]
  refine ⟨fun key => ?_, fun key optional node hfield => ?_⟩
  · rw [hkeys, Has]
    simp
  · have hfind := find?_eq_some_of_mem nodup_keys_fieldsOf hfield
    rw [find?_fieldsOf] at hfind
    obtain ⟨_, -, hvalue⟩ := Option.map_eq_some_iff.1 hfind
    obtain rfl : false = optional := congrArg Prod.fst hvalue
    refine iff_of_false Bool.false_ne_true ?_
    rintro ⟨fields', hmem, hlacks⟩
    obtain rfl := Document.object.inj (List.mem_singleton.1 hmem)
    exact hlacks ((hkeys key).1 (List.mem_map_of_mem hfield))

/-- The shape of a value within the depth describes this value. -/
lemma describes_shape (d : Document) (hdepth : depth ≤ options.maxDepth) :
    Describes (d.shape options depth) [d] := by
  cases d with
  | scalar s =>
    rw [shape]
    cases s with
    | number n =>
      change _ = true ↔ _
      simp
    | string s =>
      unfold Scalar.toJson ShapeBuilder.scalarShape
      dsimp only
      split <;> trivial
    | _ => trivial
  | array items =>
    have hlengths : lengths [.array items] = {items.length} := by
      ext n
      simp [lengths, eq_comm]
    rw [shape, if_pos hdepth, Describes, hlengths]
    exact ⟨isLeast_singleton, isGreatest_singleton⟩
  | object fields =>
    rw [shape, if_pos hdepth]
    exact describes_fieldsOf fields false

/-- The shape of a document says of the document what is so. -/
theorem exact_shape (d : Document) (hdepth : depth ≤ options.maxDepth) :
    Exact (d.shape options depth) [d] := by
  have hmembers : (d.shape options depth).members = [d.shape options depth] :=
    members_of_ne_union (kind_shape d ▸ kind_ne_union d)
  refine ⟨fun k => ?_, fun m hm => ?_⟩
  · rw [hmembers, List.map_singleton, List.map_singleton, kind_shape]
  · rw [hmembers, List.mem_singleton] at hm
    rw [hm]
    exact describes_shape d hdepth

/-- One step down from the shape of a document is the merge of the shapes that are one step down. -/
lemma child?_shape (d : Document) (step : Step) (hdepth : depth ≤ options.maxDepth) :
    (d.shape options depth).child? step =
      mergeAll options.maxSamples ((d.children step).map (shape options (depth + 1))) := by
  by_cases hkind : d.kind = step.kind
  · cases step with
    | key name =>
      obtain ⟨fields, rfl⟩ := exists_object_of_kind hkind
      rw [shape, if_pos hdepth, ← under_fieldShapes]
      change (find? name (fieldsOf options.maxSamples _)).map (·.2) = _
      rw [find?_fieldsOf, Option.map_map]
      exact Option.map_id'
    | item =>
      obtain ⟨items, rfl⟩ := exists_array_of_kind hkind
      rw [shape, if_pos hdepth, children, ← itemShapes_eq_map]
      rfl
  · have hchildren : d.children step = [] := by
      cases d <;> cases step <;> first | rfl | exact absurd rfl hkind
    have hmember : (d.shape options depth).member? step.kind = none := by
      rw [member?, members_of_ne_union (kind_shape d ▸ kind_ne_union d), memberOf?_eq_none_iff]
      simpa [kind_shape] using Ne.symm hkind
    rw [hchildren, child?, hmember]
    rfl

/-- The shape of a document reports what the document has at each position that is not too deep. -/
theorem reports_shape (d : Document) (path : List Step) (h : depth + path.length ≤ options.maxDepth) :
    Reports ((d.shape options depth).nodeAt? path) (d.valuesAt path) := by
  induction path generalizing d depth with
  | nil =>
    refine ⟨iff_of_true rfl (List.cons_ne_nil _ _), fun node hnode => ?_⟩
    obtain rfl := Option.some.inj hnode
    exact exact_shape d h
  | cons step path ih =>
    rw [List.length_cons] at h
    rw [nodeAt?, child?_shape d step (by omega), valuesAt]
    exact reports_mergeAll fun d _ => ih d (by omega)

end Json.Document

namespace ShapeBuilder

/-- A builder reports of a document what it has at each position within the limit of the depth. There keys
may repeat. -/
theorem reports_of_pushAll (options : ShapeOptions) (d : Document) (path : List Step)
    (h : path.length ≤ options.maxDepth) :
    ∃ s, (({ options } : ShapeBuilder).pushAll d.events).root = some s ∧
      Shape.Reports (s.nodeAt? path) (d.valuesAt path) := by
  refine ⟨d.shape options 0, ?_, d.reports_shape path (by omega)⟩
  rw [pushAll_of_open d rfl rfl]
  rfl

/-- Two objects of which one lacks a key. -/
theorem reports_of_missing_key :
    let d : Document := .array [.object [("done", .scalar (.bool true)), ("tags", .array [])],
      .object [("done", .scalar (.bool false))]]
    1 ≤ ({} : ShapeOptions).maxDepth ∧
      ∃ s, (({} : ShapeBuilder).pushAll d.events).root = some s ∧
        Shape.Reports (s.nodeAt? [.item]) (d.valuesAt [.item]) ∧
        s.nodeAt? [.item] =
          some (.object [("done", false, .boolean), ("tags", true, .array 0 0 none false)] false) := by
  intro d
  have hdepth : 1 ≤ ({} : ShapeOptions).maxDepth := by decide
  obtain ⟨s, hs, hreports⟩ := reports_of_pushAll {} d [.item] hdepth
  refine ⟨hdepth, s, hs, hreports, ?_⟩
  obtain rfl := Option.some.inj hs
  rfl

end ShapeBuilder

end EntityDump
