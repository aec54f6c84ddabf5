import EntityDump.Proofs.Shape.Fields
import EntityDump.Shape.Builder
import Mathlib.Data.List.Induction
/-!
# The shape of a document

The shape of a document by recursion on the document (`Document.shape`): what a builder makes of its events,
said without events. A builder between two documents takes the events of one and merges its shape into
what it holds (`pushAll_events_eq_shape`).

While the innermost container is not truncated, a document is completed in it as its shape
(`pushAll_of_open`). In a truncated container it is counted (`pushAll_of_truncated`), and below one
it passes without a trace (`pushAll_of_skipping`).
-/

namespace EntityDump

open Json (Event Document)

/-! ### The shape by recursion -/

namespace Shape

/-- Shapes merged from the first to the last. -/
def mergeAll (maxSamples : Nat) : List Shape → Option Shape
  | [] => none
  | s :: rest => some (rest.foldl (merge maxSamples) s)

/-- The shapes under one key. -/
def under (key : String) (named : List (String × Shape)) : List Shape :=
  (named.filter (·.1 = key)).map (·.2)

/-- The fields of one object: a field for each key, in the order in which the keys come first, with
everything that stands under the key merged. None is optional. -/
def fieldsOf (maxSamples : Nat) (named : List (String × Shape)) : List Field :=
  (named.map (·.1)).eraseDups.filterMap fun key =>
    (mergeAll maxSamples (under key named)).map fun node => (key, false, node)

section Fields

open Json.Fields (find?)

variable {maxSamples : Nat} {named : List (String × Shape)} {key k : String} {node : Shape}

/-- Puts a shape under its key, merged with what stands there. -/
def addField (maxSamples : Nat) (fields : List Field) (named : String × Shape) : List Field :=
  upsert named.1 (fun field => (field.1, field.2.merge maxSamples named.2)) (false, named.2) fields

/-- The last of several shapes is merged into the merge of those before it. -/
lemma mergeAll_concat (shapes : List Shape) (s : Shape) :
    mergeAll maxSamples (shapes ++ [s]) =
      some ((mergeAll maxSamples shapes).elim s fun mine => mine.merge maxSamples s) := by
  cases shapes <;> simp [mergeAll]

/-- A shape that comes last stands last under its own key, and under no other. -/
lemma under_concat :
    under k (named ++ [(key, node)]) = under k named ++ if key = k then [node] else [] := by
  by_cases h : key = k <;> simp [under, h]

/-- Only from no shapes comes no merge. -/
lemma mergeAll_eq_none_iff {shapes : List Shape} : mergeAll maxSamples shapes = none ↔ shapes = [] := by
  cases shapes <;> simp [mergeAll]

/-- Nothing stands under a key exactly if it does not occur. -/
lemma under_eq_nil_iff : under key named = [] ↔ key ∉ named.map (·.1) := by
  rw [under, List.map_eq_nil_iff, List.filter_eq_nil_iff, List.mem_map, not_exists]
  exact forall_congr' fun field => by simp

/-- Fields made for keys, none of which is left out, have these keys. -/
lemma keys_filterMap {ks : List String} {f : String → Option Shape} (h : ∀ k ∈ ks, f k ≠ none) :
    keys (ks.filterMap fun key => (f key).map fun node => (key, false, node)) = ks := by
  induction ks with
  | nil => rfl
  | cons key ks ih =>
    obtain ⟨hkey, hks⟩ := List.forall_mem_cons.1 h
    obtain ⟨node, hnode⟩ := Option.ne_none_iff_exists'.1 hkey
    simp [hnode, ih hks]

/-- A key that comes last is a further one unless it came before. -/
lemma eraseDups_concat (ks : List String) (key : String) :
    (ks ++ [key]).eraseDups = if key ∈ ks then ks.eraseDups else ks.eraseDups ++ [key] := by
  rw [List.eraseDups_append]
  by_cases h : key ∈ ks <;> simp [List.removeAll, h, List.eraseDups_cons]

/-- Without repetitions every key stands once. -/
lemma nodup_eraseDups (ks : List String) : ks.eraseDups.Nodup := by
  induction ks using List.reverseRecOn with
  | nil => exact List.nodup_nil
  | append_singleton ks key ih =>
    rw [eraseDups_concat]
    split
    · exact ih
    · next h => exact ih.append (List.nodup_singleton key) (by simpa using h)

/-- Each key that occurs has one field. -/
lemma keys_fieldsOf : keys (fieldsOf maxSamples named) = (named.map (·.1)).eraseDups := by
  refine keys_filterMap fun k hk => ?_
  rw [List.mem_eraseDups] at hk
  rwa [Ne, mergeAll_eq_none_iff, under_eq_nil_iff, not_not]

/-- The fields of one object have different keys. -/
lemma nodup_keys_fieldsOf : (keys (fieldsOf maxSamples named)).Nodup := by
  rw [keys_fieldsOf]
  exact nodup_eraseDups _

/-- Under a key stands what was there, merged. -/
lemma find?_fieldsOf (k : String) :
    find? k (fieldsOf maxSamples named) =
      (mergeAll maxSamples (under k named)).map fun node => (false, node) := by
  cases h : mergeAll maxSamples (under k named) with
  | none =>
    rw [mergeAll_eq_none_iff, under_eq_nil_iff, ← List.mem_eraseDups, ← keys_fieldsOf] at h
    exact find?_eq_none_iff.2 h
  | some node =>
    refine find?_eq_some_of_mem nodup_keys_fieldsOf (List.mem_filterMap.2 ⟨k, ?_, by rw [h]; rfl⟩)
    by_contra hk
    rw [List.mem_eraseDups] at hk
    rw [mergeAll_eq_none_iff.2 (under_eq_nil_iff.2 hk)] at h
    cases h

/-- The fields of an object come about one after another. -/
lemma foldl_addField : named.foldl (addField maxSamples) [] = fieldsOf maxSamples named := by
  induction named using List.reverseRecOn with
  | nil => rfl
  | append_singleton named last ih =>
    obtain ⟨key, node⟩ := last
    rw [List.foldl_append, List.foldl_cons, List.foldl_nil, ih]
    refine fields_ext ?_ (nodup_keys_upsert _ _ nodup_keys_fieldsOf) fun k => ?_
    · rw [addField, keys_upsert, keys_fieldsOf, keys_fieldsOf, List.map_append, List.map_singleton,
        eraseDups_concat]
      simp only [List.mem_eraseDups]
    · rw [addField, find?_upsert, find?_fieldsOf, find?_fieldsOf, find?_fieldsOf, under_concat]
      by_cases h : key = k
      · subst h
        rw [if_pos rfl, if_pos rfl, mergeAll_concat]
        cases mergeAll maxSamples (under key named) <;> rfl
      · simp [h]

end Fields

end Shape

open Shape (mergeAll fieldsOf under keys)

namespace Json.Document

mutual

/-- The shape of a document at a depth. Below the limit of the depth an array keeps its length alone, and
an object nothing. -/
def shape (options : ShapeOptions) (depth : Nat) : Document → Shape
  | .scalar s => ShapeBuilder.scalarShape options s.toJson
  | .array items =>
    if depth ≤ options.maxDepth then
      .array items.length items.length
        (mergeAll options.maxSamples (itemShapes options (depth + 1) items)) false
    else .array items.length items.length none true
  | .object fields =>
    if depth ≤ options.maxDepth then
      .object (fieldsOf options.maxSamples (fieldShapes options (depth + 1) fields)) false
    else .object [] true

/-- The shapes of items. -/
def itemShapes (options : ShapeOptions) (depth : Nat) : List Document → List Shape
  | [] => []
  | item :: items => item.shape options depth :: itemShapes options depth items

/-- The shapes of fields, each with its key. -/
def fieldShapes (options : ShapeOptions) (depth : Nat) :
    List (String × Document) → List (String × Shape)
  | [] => []
  | (key, value) :: fields => (key, value.shape options depth) :: fieldShapes options depth fields

end

end Json.Document

namespace ShapeBuilder

variable {options : ShapeOptions} {frames : List ShapeFrame} {root : Option Shape} {b : ShapeBuilder}

lemma pushAll_cons (event : Event) (events : List Event) :
    b.pushAll (event :: events) = (b.push event).pushAll events := rfl

lemma pushAll_append (events events' : List Event) :
    b.pushAll (events ++ events') = (b.pushAll events).pushAll events' :=
  List.foldl_append

/-! ### Below a truncated container -/

section Skipping

variable {items : List Document} {fields : List (String × Document)}

/-- Inside a container that is skipped only the brackets are counted. -/
lemma push_of_skipping (h : 0 < b.skipping) (event : Event) :
    b.push event =
      if event.opens then { b with skipping := b.skipping + 1 }
      else if event.closes then { b with skipping := b.skipping - 1 }
      else b :=
  if_pos h

/-- Items below a truncated container leave no trace if none of them does. -/
lemma pushAll_itemEvents_of_skipping
    (hitems : ∀ d ∈ items, ∀ b : ShapeBuilder, 0 < b.skipping → b.pushAll d.events = b)
    (h : 0 < b.skipping) : b.pushAll (Document.itemEvents items) = b := by
  induction items with
  | nil => rfl
  | cons item items ih =>
    obtain ⟨hitem, hitems⟩ := List.forall_mem_cons.1 hitems
    rw [Document.itemEvents, pushAll_append, hitem b h, ih hitems]

/-- Fields below a truncated container leave no trace if none of their values does. -/
lemma pushAll_fieldEvents_of_skipping
    (hfields : ∀ f ∈ fields, ∀ b : ShapeBuilder, 0 < b.skipping → b.pushAll f.2.events = b)
    (h : 0 < b.skipping) : b.pushAll (Document.fieldEvents fields) = b := by
  induction fields with
  | nil => rfl
  | cons field fields ih =>
    obtain ⟨key, d⟩ := field
    obtain ⟨hfield, hfields⟩ := List.forall_mem_cons.1 hfields
    have hkey : b.push (.key key) = b := push_of_skipping h _
    rw [Document.fieldEvents, pushAll_cons, hkey, pushAll_append, hfield b h, ih hfields]

/-- Below a truncated container a document leaves no trace. -/
theorem pushAll_of_skipping (d : Document) (h : 0 < b.skipping) : b.pushAll d.events = b := by
  induction d using Document.induction generalizing b with
  | scalar s => exact push_of_skipping h (.scalar s.toJson)
  | array items ih =>
    have hstart : b.push .arrayStart = { b with skipping := b.skipping + 1 } := push_of_skipping h _
    have hinside : 0 < ({ b with skipping := b.skipping + 1 } : ShapeBuilder).skipping :=
      Nat.succ_pos _
    rw [Document.events, pushAll_cons, hstart, pushAll_append,
      pushAll_itemEvents_of_skipping (fun d hd b hb => ih d hd hb) hinside]
    exact push_of_skipping hinside .arrayEnd
  | object fields ih =>
    have hstart : b.push .objectStart = { b with skipping := b.skipping + 1 } := push_of_skipping h _
    have hinside : 0 < ({ b with skipping := b.skipping + 1 } : ShapeBuilder).skipping :=
      Nat.succ_pos _
    rw [Document.events, pushAll_cons, hstart, pushAll_append,
      pushAll_fieldEvents_of_skipping (fun f hf b hb => ih f hf hb) hinside]
    exact push_of_skipping hinside .objectEnd

/-- In a truncated container a document is counted, if that is an array. -/
theorem pushAll_of_truncated (d : Document) (h : b.skipping = 0) (hcut : b.inTruncated = true) :
    b.pushAll d.events = b.countTruncated := by
  obtain ⟨options, frames, skipping, root⟩ := b
  obtain rfl : skipping = 0 := h
  -- A container is passed over as a whole, from its beginning to its end.
  have hopen : ∀ frame : Bool → ShapeFrame, (⟨options, frames, 0, root⟩ : ShapeBuilder).openFrame frame =
      { (⟨options, frames, 0, root⟩ : ShapeBuilder).countTruncated with skipping := 1 } :=
    fun _ => if_pos hcut
  have hclose : ∀ (b : ShapeBuilder) (event : Event), b.skipping = 0 → event.closes = true →
      event.opens = false → ({ b with skipping := 1 } : ShapeBuilder).push event = b := by
    intro b event hb hcloses hopens
    rw [push_of_skipping Nat.one_pos, hopens, if_neg Bool.false_ne_true, if_pos hcloses]
    cases b
    cases hb
    rfl
  have hcount : (⟨options, frames, 0, root⟩ : ShapeBuilder).countTruncated.skipping = 0 := by
    unfold countTruncated
    split <;> rfl
  cases d with
  | scalar s => exact if_pos hcut
  | array items =>
    rw [Document.events, pushAll_cons]
    change ((⟨options, frames, 0, root⟩ : ShapeBuilder).openFrame _).pushAll _ = _
    rw [hopen, pushAll_append,
      pushAll_itemEvents_of_skipping (fun d _ b => pushAll_of_skipping d) Nat.one_pos]
    exact hclose _ .arrayEnd hcount rfl rfl
  | object fields =>
    rw [Document.events, pushAll_cons]
    change ((⟨options, frames, 0, root⟩ : ShapeBuilder).openFrame _).pushAll _ = _
    rw [hopen, pushAll_append,
      pushAll_fieldEvents_of_skipping (fun f _ b => pushAll_of_skipping f.2) Nat.one_pos]
    exact hclose _ .objectEnd hcount rfl rfl

end Skipping

/-! ### Inside containers that are kept -/

section Open

variable {items : List Document} {fields : List (String × Document)}

/-- A document completes the innermost container by its shape. -/
def Completes (d : Document) : Prop :=
  ∀ b : ShapeBuilder, b.skipping = 0 → b.inTruncated = false →
    b.pushAll d.events = b.complete (d.shape b.options b.frames.length)

/-- The items of an array are counted and merged. -/
lemma pushAll_itemEvents (hitems : ∀ d ∈ items, Completes d) (length : Nat) (merged : Option Shape) :
    (⟨options, .array length merged false :: frames, 0, root⟩ : ShapeBuilder).pushAll
        (Document.itemEvents items) =
      ⟨options, .array (length + items.length)
        ((Document.itemShapes options (frames.length + 1) items).foldl (mergeInto options) merged) false ::
          frames, 0, root⟩ := by
  induction items generalizing length merged with
  | nil => rfl
  | cons item items ih =>
    obtain ⟨hitem, hitems⟩ := List.forall_mem_cons.1 hitems
    rw [Document.itemEvents, pushAll_append, hitem _ rfl rfl]
    refine (ih hitems _ _).trans ?_
    rw [List.length_cons, Nat.add_assoc, Nat.add_comm 1]
    rfl

/-- The items of a truncated array are counted. -/
lemma pushAll_itemEvents_of_truncated (items : List Document) (length : Nat) (merged : Option Shape) :
    (⟨options, .array length merged true :: frames, 0, root⟩ : ShapeBuilder).pushAll
        (Document.itemEvents items) =
      ⟨options, .array (length + items.length) merged true :: frames, 0, root⟩ := by
  induction items generalizing length with
  | nil => rfl
  | cons item items ih =>
    rw [Document.itemEvents, pushAll_append, pushAll_of_truncated item rfl rfl]
    refine (ih _).trans ?_
    rw [List.length_cons, Nat.add_assoc, Nat.add_comm 1]

/-- The fields of an object are put under their keys. -/
lemma pushAll_fieldEvents (hfields : ∀ f ∈ fields, Completes f.2) (done : List Shape.Field) :
    (⟨options, .object done none false :: frames, 0, root⟩ : ShapeBuilder).pushAll
        (Document.fieldEvents fields) =
      ⟨options, .object ((Document.fieldShapes options (frames.length + 1) fields).foldl
        (Shape.addField options.maxSamples) done) none false :: frames, 0, root⟩ := by
  induction fields generalizing done with
  | nil => rfl
  | cons field fields ih =>
    obtain ⟨key, d⟩ := field
    obtain ⟨hfield, hfields⟩ := List.forall_mem_cons.1 hfields
    rw [Document.fieldEvents, pushAll_cons, pushAll_append]
    have hkey : (⟨options, .object done none false :: frames, 0, root⟩ : ShapeBuilder).push (.key key) =
        ⟨options, .object done (some key) false :: frames, 0, root⟩ := rfl
    rw [hkey, hfield _ rfl rfl]
    exact ih hfields _

/-- Of the fields of a truncated object nothing is kept. -/
lemma pushAll_fieldEvents_of_truncated (options : ShapeOptions) (frames : List ShapeFrame)
    (root : Option Shape) (fields : List (String × Document)) (done : List Shape.Field)
    (pending : Option String) :
    ∃ pending', (⟨options, .object done pending true :: frames, 0, root⟩ : ShapeBuilder).pushAll
        (Document.fieldEvents fields) =
      ⟨options, .object done pending' true :: frames, 0, root⟩ := by
  induction fields generalizing pending with
  | nil => exact ⟨pending, rfl⟩
  | cons field fields ih =>
    obtain ⟨key, d⟩ := field
    have hkey : (⟨options, .object done pending true :: frames, 0, root⟩ : ShapeBuilder).push (.key key) =
        ⟨options, .object done (some key) true :: frames, 0, root⟩ := rfl
    rw [Document.fieldEvents, pushAll_cons, pushAll_append, hkey, pushAll_of_truncated d rfl rfl]
    exact ih _

/-- Shapes merged into nothing from the first to the last are their merge. -/
lemma foldl_mergeInto (shapes : List Shape) :
    shapes.foldl (mergeInto options) none = mergeAll options.maxSamples shapes := by
  induction shapes using List.reverseRecOn with
  | nil => rfl
  | append_singleton shapes s ih =>
    rw [List.foldl_append, List.foldl_cons, List.foldl_nil, ih, Shape.mergeAll_concat]
    cases mergeAll options.maxSamples shapes <;> rfl

/-- A container that is opened where nothing is cut becomes the innermost, cut itself if it lies too deep. -/
lemma openFrame_of_open {frame : Bool → ShapeFrame}
    (hopen : (⟨options, frames, 0, root⟩ : ShapeBuilder).inTruncated = false) :
    (⟨options, frames, 0, root⟩ : ShapeBuilder).openFrame frame =
      ⟨options, frame (frames.length > options.maxDepth) :: frames, 0, root⟩ :=
  if_neg (by simp [hopen])

/-- In a container that is kept, a document is completed as its shape. -/
theorem pushAll_of_open (d : Document) (h : b.skipping = 0) (hopen : b.inTruncated = false) :
    b.pushAll d.events = b.complete (d.shape b.options b.frames.length) := by
  suffices Completes d from this b h hopen
  -- The induction is for every builder, as each item finds what the items before it have left.
  clear h hopen
  induction d using Document.induction with
  | scalar s =>
    rintro ⟨options, frames, skipping, root⟩ rfl hopen
    exact if_neg (by simp [hopen])
  | array items ih =>
    rintro ⟨options, frames, skipping, root⟩ rfl hopen
    have hstart : (⟨options, frames, 0, root⟩ : ShapeBuilder).push .arrayStart =
        ⟨options, .array 0 none (frames.length > options.maxDepth) :: frames, 0, root⟩ :=
      openFrame_of_open hopen
    rw [Document.events, pushAll_cons, hstart, pushAll_append, Document.shape]
    by_cases hdepth : frames.length ≤ options.maxDepth
    · rw [decide_eq_false (Nat.not_lt.2 hdepth), pushAll_itemEvents ih, foldl_mergeInto, if_pos hdepth,
        Nat.zero_add]
      rfl
    · rw [decide_eq_true (Nat.not_le.1 hdepth), pushAll_itemEvents_of_truncated, if_neg hdepth,
        Nat.zero_add]
      rfl
  | object fields ih =>
    rintro ⟨options, frames, skipping, root⟩ rfl hopen
    have hstart : (⟨options, frames, 0, root⟩ : ShapeBuilder).push .objectStart =
        ⟨options, .object [] none (frames.length > options.maxDepth) :: frames, 0, root⟩ :=
      openFrame_of_open hopen
    rw [Document.events, pushAll_cons, hstart, pushAll_append, Document.shape]
    by_cases hdepth : frames.length ≤ options.maxDepth
    · rw [decide_eq_false (Nat.not_lt.2 hdepth), pushAll_fieldEvents ih, Shape.foldl_addField,
        if_pos hdepth]
      rfl
    · obtain ⟨pending, hfields⟩ :=
        pushAll_fieldEvents_of_truncated options frames root fields [] none
      rw [decide_eq_true (Nat.not_le.1 hdepth), hfields, if_neg hdepth]
      rfl

end Open

end ShapeBuilder

end EntityDump
