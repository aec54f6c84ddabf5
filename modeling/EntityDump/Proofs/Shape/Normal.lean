import EntityDump.Proofs.Numeric.DoubleOrder
import EntityDump.Proofs.Shape.Members
import EntityDump.Proofs.Shape.Strings
import EntityDump.Shape.Builder
/-!
# The normal form of shapes

Shapes that were taken under the same options have a common form (`Normal`), which depends on the depth at
which they stand: containers are truncated below the limit and nowhere else, and truncated containers are
empty. A merge keeps the form (`Normal.merge`), and so does every event that a builder takes: whatever
events a builder was given, the shape that it holds is normal (`normal_of_pushAll`).
-/

namespace EntityDump.Shape

open Json (Event)
open Json.Fields (find?)

/-- A shape as it may stand at a depth. What is asked of the bounds of numbers is left open. -/
inductive Normal (options : ShapeOptions) (bound : Float → Prop) : Nat → Shape → Prop
  | object {depth : Nat} {fields : List Field} {cut : Bool} : cut = decide (options.maxDepth < depth) →
      (cut = true → fields = []) → (keys fields).Nodup →
      (∀ f ∈ fields, Normal options bound (depth + 1) f.2.2) →
      Normal options bound depth (.object fields cut)
  | array {depth minLen maxLen : Nat} {items : Option Shape} {cut : Bool} :
      cut = decide (options.maxDepth < depth) → (cut = true → items = none) → minLen ≤ maxLen →
      (∀ node ∈ items, Normal options bound (depth + 1) node) →
      Normal options bound depth (.array minLen maxLen items cut)
  | string {depth : Nat} {patterns : List Pattern} {examples : List String} : Listed patterns →
      Capped options.maxSamples examples → Normal options bound depth (.string patterns examples)
  | number {depth : Nat} {min max : Float} {integer : Bool} : bound min → bound max →
      Normal options bound depth (.number min max integer)
  | boolean {depth : Nat} : Normal options bound depth .boolean
  | null {depth : Nat} : Normal options bound depth .null
  | union {depth : Nat} {members : List Shape} : Members members → 2 ≤ members.length →
      (∀ m ∈ members, Normal options bound depth m) → Normal options bound depth (.union members)

namespace Normal

variable {options : ShapeOptions} {bound : Float → Prop} {depth : Nat} {a b m : Shape}

/-! ### Members of normal shapes -/

/-- Normal shapes are regular. -/
lemma regular (h : Normal options bound depth a) : Regular a := by
  cases h with
  | union hmembers hlength => exact ⟨hmembers, fun _ => hlength⟩
  | _ => exact regular_of_ne_union (by simp [kind])

/-- The members of a normal shape are normal. -/
lemma of_mem_members (h : Normal options bound depth a) (hm : m ∈ a.members) :
    Normal options bound depth m := by
  cases h with
  | union _ _ hnormal => exact hnormal m hm
  | _ =>
    cases List.mem_singleton.1 hm
    constructor <;> assumption

/-- So is its member of each kind. -/
lemma of_member? {k : ShapeKind} (h : Normal options bound depth a) (hm : a.member? k = some m) :
    Normal options bound depth m :=
  h.of_mem_members (h.regular.member?_eq_some_iff.1 hm).1

/-- A regular shape is normal if its members are. -/
lemma of_members (hregular : Regular a) (h : ∀ m ∈ a.members, Normal options bound depth m) :
    Normal options bound depth a := by
  by_cases hunion : a.kind = .union
  · cases a <;> cases hunion
    exact .union hregular.members (hregular.length rfl) h
  · exact h a (by simp [members_of_ne_union hunion])

/-- A merge is normal if the members of each kind merge to a normal shape. -/
lemma merge_of_members (ha : Normal options bound depth a) (hb : Normal options bound depth b)
    (h : ∀ x ∈ a.members, ∀ y ∈ b.members, y.kind = x.kind →
      Normal options bound depth (x.merge options.maxSamples y)) :
    Normal options bound depth (a.merge options.maxSamples b) := by
  have hregular := ha.regular.merge options.maxSamples hb.regular
  refine of_members hregular fun m hm => ?_
  have hmember := member?_merge options.maxSamples ha.regular hb.regular m.kind
  rw [hregular.member?_eq_some_iff.2 ⟨hm, rfl⟩] at hmember
  rcases Option.merge_eq_some_iff.1 hmember.symm with ⟨hx, -⟩ | ⟨-, hy⟩ | ⟨x, y, hx, hy, rfl⟩
  · exact ha.of_member? hx
  · exact hb.of_member? hy
  · obtain ⟨hx, hxkind⟩ := ha.regular.member?_eq_some_iff.1 hx
    obtain ⟨hy, hykind⟩ := hb.regular.member?_eq_some_iff.1 hy
    exact h x hx y hy (hykind.trans hxkind.symm)

/-! ### Merges of one kind -/

section Same

variable {fields mine : List Field} {items mineItems : Option Shape} {cut mineCut : Bool}

/-- Joined fields are normal if both sides are and a merge with a field of the incoming side keeps shapes normal. -/
lemma joinFields (hmine : ∀ f ∈ mine, Normal options bound depth f.2.2)
    (hfields : ∀ f ∈ fields, Normal options bound depth f.2.2) (hkeys : (keys mine).Nodup)
    (hkeys' : (keys fields).Nodup)
    (h : ∀ f ∈ fields, ∀ a, Normal options bound depth a →
      Normal options bound depth (a.merge options.maxSamples f.2.2)) :
    ∀ f ∈ Shape.joinFields options.maxSamples mine fields, Normal options bound depth f.2.2 := by
  rintro ⟨key, value⟩ hmem
  have hfind := find?_eq_some_of_mem (nodup_keys_joinFields _ hkeys hkeys') hmem
  rw [find?_joinFields _ hkeys'] at hfind
  rcases of_joinField_eq_some _ hfind with
    ⟨ours, hx, -, rfl⟩ | ⟨theirs, -, hy, rfl⟩ | ⟨ours, theirs, hx, hy, rfl⟩
  · exact hmine (key, ours) (mem_of_find?_eq_some hx)
  · exact hfields (key, theirs) (mem_of_find?_eq_some hy)
  · have hours := hmine (key, ours) (mem_of_find?_eq_some hx)
    exact h (key, theirs) (mem_of_find?_eq_some hy) ours.2 hours

/-- A merge of normal objects is normal if merges of their fields are. -/
lemma mergeObjects (hmine : Normal options bound depth (.object mine mineCut))
    (hfields : Normal options bound depth (.object fields cut))
    (h : ∀ f ∈ fields, ∀ a, Normal options bound (depth + 1) a →
      Normal options bound (depth + 1) (a.merge options.maxSamples f.2.2)) :
    Normal options bound depth
      (mergeSame options.maxSamples (.object fields cut) (.object mine mineCut)) := by
  cases hmine with
  | object hcut hmineCut hkeys hmine =>
    cases hfields with
    | object hcut' hfieldsCut hkeys' hfields =>
      obtain rfl : mineCut = cut := hcut.trans hcut'.symm
      rw [mergeSame_object_of_cut _ hfieldsCut hmineCut]
      exact .object hcut (joinFields_of_cut _ hfieldsCut hmineCut) (nodup_keys_joinFields _ hkeys hkeys')
        (joinFields hmine hfields hkeys hkeys' h)

/-- A merge of normal arrays is normal if merges of their items are. -/
lemma mergeArrays {minLen maxLen mineMin mineMax : Nat}
    (hmine : Normal options bound depth (.array mineMin mineMax mineItems mineCut))
    (hitems : Normal options bound depth (.array minLen maxLen items cut))
    (h : ∀ node ∈ items, ∀ a, Normal options bound (depth + 1) a →
      Normal options bound (depth + 1) (a.merge options.maxSamples node)) :
    Normal options bound depth
      (mergeSame options.maxSamples (.array minLen maxLen items cut)
        (.array mineMin mineMax mineItems mineCut)) := by
  rw [mergeSame_array]
  cases hmine with
  | array hcut hmineCut hmineLen hmine =>
    cases hitems with
    | array hcut' hitemsCut hitemsLen hitems =>
      obtain rfl : mineCut = cut := hcut.trans hcut'.symm
      rw [Bool.or_self]
      refine .array hcut (fun htrue => ?_) (by omega) fun node hnode => ?_
      · rw [hitemsCut htrue, hmineCut htrue]
        rfl
      · rcases Option.merge_eq_some_iff.1 hnode with ⟨hx, -⟩ | ⟨-, hy⟩ | ⟨x, y, hx, hy, rfl⟩
        · exact hmine node hx
        · exact hitems node hy
        · exact h y hy x (hmine x hx)

end Same

/-- Only the member of its own kind meets a shape that is no union. -/
lemma merge_of_same (hunion : b.kind ≠ .union) (ha : Normal options bound depth a)
    (hb : Normal options bound depth b)
    (h : ∀ x, Normal options bound depth x → x.kind = b.kind →
      Normal options bound depth (mergeSame options.maxSamples b x)) :
    Normal options bound depth (a.merge options.maxSamples b) := by
  refine ha.merge_of_members hb fun x hx y hy hkind => ?_
  rw [members_of_ne_union hunion, List.mem_singleton] at hy
  subst hy
  rw [merge_of_kind_eq _ hkind (hkind ▸ hunion)]
  exact h x (ha.of_mem_members hx) hkind.symm

/-- Shapes that are normal at one depth have a normal merge. -/
theorem merge (ha : Normal options bound depth a) (hb : Normal options bound depth b) :
    Normal options bound depth (a.merge options.maxSamples b) := by
  -- A merge goes down the shape that comes in, so the induction is on it.
  induction b using Shape.induction generalizing a depth with
  | object fields cut ih =>
    refine merge_of_same (by simp [kind]) ha hb fun x hx hkind => ?_
    cases x <;> cases hkind
    cases hb with
    | object hcut hfieldsCut hkeys hfields =>
      exact hx.mergeObjects (.object hcut hfieldsCut hkeys hfields)
        fun f hf a ha => ih f hf ha (hfields f hf)
  | array minLen maxLen items cut ih =>
    refine merge_of_same (by simp [kind]) ha hb fun x hx hkind => ?_
    cases x <;> cases hkind
    cases hb with
    | array hcut hitemsCut hlen hitems =>
      exact hx.mergeArrays (.array hcut hitemsCut hlen hitems)
        fun node hn a ha => ih node hn ha (hitems node hn)
  | string patterns examples =>
    refine merge_of_same (by simp [kind]) ha hb fun x hx hkind => ?_
    cases x <;> cases hkind
    cases hx with
    | string _ hmine => exact .string (listed_mergePatterns _ _) (hmine.mergeExamples _)
  | number min max integer =>
    refine merge_of_same (by simp [kind]) ha hb fun x hx hkind => ?_
    cases x <;> cases hkind
    cases hx with
    | number hmin hmax =>
      cases hb with
      | number hmin' hmax' => exact .number (Numeric.lesser_of hmin hmin') (Numeric.greater_of hmax hmax')
  | boolean => exact merge_of_same (by simp [kind]) ha hb fun x hx _ => hx
  | null => exact merge_of_same (by simp [kind]) ha hb fun x hx _ => hx
  | union members ih =>
    refine ha.merge_of_members hb fun x hx y hy _ => ?_
    exact ih y hy (ha.of_mem_members hx) (hb.of_mem_members hy)

/-! ### What a builder holds -/

/-- The shape of a scalar is normal, where its number is within the bound. -/
lemma scalarShape {json : Json} (h : ∀ n, json = .number n → bound n.toFloat) :
    Normal options bound depth (ShapeBuilder.scalarShape options json) := by
  cases json with
  | number n => exact .number (h n rfl) (h n rfl)
  | string s =>
    unfold ShapeBuilder.scalarShape
    dsimp only
    split
    · exact .string (listed_singleton _) ⟨List.nodup_nil, Nat.zero_le _⟩
    · refine .string listed_nil ?_
      split
      · next hroom => exact ⟨List.nodup_singleton s, hroom⟩
      · exact ⟨List.nodup_nil, Nat.zero_le _⟩
  | bool b => exact .boolean
  | _ => exact .null

/-- A normal shape merged into none or into a normal one leaves a normal one. -/
lemma mergeInto {mine : Option Shape} (hmine : ∀ s ∈ mine, Normal options bound depth s)
    (ha : Normal options bound depth a) :
    ∀ s ∈ ShapeBuilder.mergeInto options mine a, Normal options bound depth s := by
  rintro s hs
  obtain rfl := Option.some.inj hs
  cases mine with
  | none => exact ha
  | some mine => exact (hmine mine rfl).merge ha

/-- Putting a value under a key keeps an object normal. -/
lemma upsert {fields : List Field} {cut : Bool} (key : String)
    (h : Normal options bound depth (.object fields cut)) (hcut : cut = false)
    (ha : Normal options bound (depth + 1) a) :
    Normal options bound depth (.object (Shape.upsert key
      (fun field => (field.1, field.2.merge options.maxSamples a)) (false, a) fields) cut) := by
  subst hcut
  cases h with
  | object hcut _ hkeys hfields =>
    have hnodup : (keys (Shape.upsert key
        (fun field => (field.1, field.2.merge options.maxSamples a)) (false, a) fields)).Nodup :=
      nodup_keys_upsert _ _ hkeys
    refine .object hcut (by simp) hnodup ?_
    rintro ⟨k, value⟩ hmem
    have hfind := find?_eq_some_of_mem hnodup hmem
    rw [find?_upsert] at hfind
    split at hfind
    · cases hold : find? key fields with
      | none =>
        obtain rfl : (false, a) = value := by simpa [hold] using hfind
        exact ha
      | some field =>
        obtain rfl : (field.1, field.2.merge options.maxSamples a) = value := by
          simpa [hold] using hfind
        exact (hfields (key, field) (mem_of_find?_eq_some hold)).merge ha
    · exact hfields (k, value) (mem_of_find?_eq_some hfind)

end Normal

/-- Open containers, the innermost first: each is normal at the depth at which it stands, and only the
innermost may be truncated. -/
inductive NormalFrames (options : ShapeOptions) (bound : Float → Prop) : List ShapeFrame → Prop
  | nil : NormalFrames options bound []
  | cons {frame : ShapeFrame} {frames : List ShapeFrame} :
      Normal options bound frames.length frame.shape → (∀ parent ∈ frames.head?, parent.truncated = false) →
      NormalFrames options bound frames → NormalFrames options bound (frame :: frames)

/-- A builder that holds normal shapes. -/
structure NormalBuilder (bound : Float → Prop) (b : ShapeBuilder) : Prop where
  frames : NormalFrames b.options bound b.frames
  root : ∀ s ∈ b.root, Normal b.options bound 0 s

namespace NormalBuilder

variable {bound : Float → Prop} {b : ShapeBuilder} {node : Shape}

variable {options : ShapeOptions} {frames : List ShapeFrame} {skipping : Nat} {root : Option Shape}

/-- Changing the innermost container, but not whether it is truncated, keeps a builder normal. -/
lemma change {frame : ShapeFrame} (h : NormalBuilder bound ⟨options, frame :: frames, skipping, root⟩)
    (frame' : ShapeFrame) (hframe : Normal options bound frames.length frame.shape →
      Normal options bound frames.length frame'.shape) (skipping' : Nat) :
    NormalBuilder bound ⟨options, frame' :: frames, skipping', root⟩ := by
  refine ⟨?_, h.root⟩
  cases h.frames with
  | cons hshape hparent hframes => exact .cons (hframe hshape) hparent hframes

/-- A builder stays normal when a normal node is completed where nothing is cut. -/
lemma complete (h : NormalBuilder bound b) (hopen : b.inTruncated = false)
    (hnode : Normal b.options bound b.frames.length node) : NormalBuilder bound (b.complete node) := by
  obtain ⟨options, frames, skipping, root⟩ := b
  match frames with
  | [] => exact ⟨.nil, Normal.mergeInto h.root hnode⟩
  | .object fields key cut :: frames =>
    have hcut : cut = false := hopen
    exact h.change (.object _ none cut) (fun hshape => hshape.upsert (key.getD "") hcut hnode) _
  | .array length items cut :: frames =>
    obtain rfl : cut = false := hopen
    refine h.change (.array _ _ _) (fun hshape => ?_) _
    cases hshape with
    | array hcut _ _ hitems =>
      exact .array hcut (by simp) (Nat.le_refl _) (Normal.mergeInto hitems hnode)

/-- A builder stays normal when it counts a value that it cuts. -/
lemma countTruncated (h : NormalBuilder bound b) (hcut : b.inTruncated = true) (skipping : Nat) :
    NormalBuilder bound { b.countTruncated with skipping := skipping } := by
  obtain ⟨options, frames, _, root⟩ := b
  match frames with
  | [] => exact ⟨.nil, h.root⟩
  | .object fields key cut :: frames => exact h.change _ id _
  | .array length items cut :: frames =>
    obtain rfl : cut = true := hcut
    refine h.change (.array _ _ _) (fun hshape => ?_) _
    cases hshape with
    | array hcut hitemsCut _ hitems => exact .array hcut hitemsCut (Nat.le_refl _) hitems

/-- A container that is opened is truncated if it stands too deep. -/
lemma openFrame (h : NormalBuilder bound b) {frame : Bool → ShapeFrame}
    (hframe : ∀ depth cut, cut = decide (depth > b.options.maxDepth) →
      Normal b.options bound depth (frame cut).shape) : NormalBuilder bound (b.openFrame frame) := by
  unfold ShapeBuilder.openFrame
  split
  · next hcut => exact h.countTruncated hcut 1
  · next hopen =>
    refine ⟨.cons (hframe _ _ rfl) (fun parent hparent => ?_) h.frames, h.root⟩
    rw [Option.mem_def] at hparent
    simpa [ShapeBuilder.inTruncated, hparent] using hopen

/-- A builder stays normal when its innermost container is closed. -/
lemma closeFrame (h : NormalBuilder bound b) : NormalBuilder bound b.closeFrame := by
  obtain ⟨options, frames, skipping, root⟩ := b
  match frames with
  | [] => exact h
  | frame :: frames =>
    cases h.frames with
    | cons hframe hparent hframes =>
      have hrest : NormalBuilder bound ⟨options, frames, skipping, root⟩ := ⟨hframes, h.root⟩
      refine hrest.complete ?_ hframe
      cases frames with
      | nil => rfl
      | cons parent frames => exact hparent parent rfl

/-- Every event keeps a builder normal, whether or not it makes sense where it comes. -/
theorem push (h : NormalBuilder bound b) {event : Event}
    (hevent : ∀ n, event = .scalar (.number n) → bound n.toFloat) : NormalBuilder bound (b.push event) := by
  unfold ShapeBuilder.push
  split
  · split
    · exact ⟨h.frames, h.root⟩
    · split
      · exact ⟨h.frames, h.root⟩
      · exact h
  · cases event with
    | key name =>
      obtain ⟨options, frames, skipping, root⟩ := b
      match frames with
      | [] => exact h
      | .object fields _ cut :: frames => exact h.change (.object fields (some name) cut) id _
      | .array length items cut :: frames => exact h
    | objectStart =>
      exact h.openFrame fun depth cut hcut => .object hcut (fun _ => rfl) List.nodup_nil (by simp)
    | arrayStart =>
      exact h.openFrame fun depth cut hcut => .array hcut (fun _ => rfl) (Nat.le_refl 0) (by simp)
    | objectEnd => exact h.closeFrame
    | arrayEnd => exact h.closeFrame
    | scalar value =>
      dsimp only
      split
      · next hcut => exact h.countTruncated hcut _
      · next hopen =>
        exact h.complete (by simpa using hopen) (Normal.scalarShape fun n hn => hevent n (hn ▸ rfl))

/-- Any events at all keep a builder normal. -/
theorem pushAll (h : NormalBuilder bound b) {events : List Event}
    (hevents : ∀ n, .scalar (.number n) ∈ events → bound n.toFloat) :
    NormalBuilder bound (b.pushAll events) := by
  induction events generalizing b with
  | nil => exact h
  | cons event events ih =>
    have hpush := h.push fun n hn => hevents n (hn ▸ List.mem_cons_self)
    exact ih hpush fun n hn => hevents n (List.mem_cons_of_mem event hn)

/-- A builder is normal at its start. -/
lemma start (options : ShapeOptions) : NormalBuilder bound { options := options } :=
  ⟨.nil, by simp⟩

end NormalBuilder

/-! ### Options -/

section Options

variable (b : ShapeBuilder)

/-- Completing a node keeps the options. -/
lemma options_complete (node : Shape) : (b.complete node).options = b.options := by
  unfold ShapeBuilder.complete
  split <;> rfl

/-- Counting what is cut keeps the options. -/
lemma options_countTruncated : b.countTruncated.options = b.options := by
  unfold ShapeBuilder.countTruncated
  split <;> rfl

/-- Opening a container keeps the options. -/
lemma options_openFrame (frame : Bool → ShapeFrame) : (b.openFrame frame).options = b.options := by
  unfold ShapeBuilder.openFrame
  split
  · exact options_countTruncated b
  · rfl

/-- Closing a container keeps the options. -/
lemma options_closeFrame : b.closeFrame.options = b.options := by
  unfold ShapeBuilder.closeFrame
  split
  · rfl
  · exact options_complete _ _

/-- No event changes the options. -/
lemma options_push (event : Event) : (b.push event).options = b.options := by
  unfold ShapeBuilder.push
  split
  · split
    · rfl
    · split <;> rfl
  · cases event with
    | key name =>
      dsimp only
      split <;> rfl
    | objectStart => exact options_openFrame b _
    | arrayStart => exact options_openFrame b _
    | objectEnd => exact options_closeFrame b
    | arrayEnd => exact options_closeFrame b
    | scalar value =>
      dsimp only
      split
      · exact options_countTruncated b
      · exact options_complete b _

/-- No events change the options. -/
lemma options_pushAll (events : List Event) : (b.pushAll events).options = b.options := by
  induction events generalizing b with
  | nil => rfl
  | cons event events ih => exact (ih (b.push event)).trans (options_push b event)

end Options

/-- The shape of any events at all is normal, whether or not they are those of documents. -/
theorem normal_of_pushAll {options : ShapeOptions} {bound : Float → Prop} {events : List Event}
    {s : Shape} (hevents : ∀ n, .scalar (.number n) ∈ events → bound n.toFloat)
    (hs : (({ options := options } : ShapeBuilder).pushAll events).root = some s) :
    Normal options bound 0 s := by
  have h := ((NormalBuilder.start options).pushAll hevents).root s hs
  rwa [options_pushAll] at h

end EntityDump.Shape
