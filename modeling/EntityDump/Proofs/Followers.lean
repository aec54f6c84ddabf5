import EntityDump.Proofs.Elements
import EntityDump.Proofs.Tokenizer.Emission
import EntityDump.Shape.Builder
import Mathlib.Data.List.Forall2
/-!
# Those who follow the events

The assembler of values, the shape builder and the extractor of elements take events on trust: a value in
an object without a pending key would go under the empty key, and an end would close whatever is open.
Each of them has a relation to the open containers of the place that is reached (`Slot`), which every
event that may come next keeps. So they are never given such an event (`emits_wellFormed`).
-/

namespace EntityDump

open Json (Event Document Frame Assembler)

/-- What every event keeps holds along the way to a place. -/
lemma Place.Reached.foldl {σ : Type} {push : σ → Event → σ} {Follows : σ → List Slot → Prop}
    (hstep : ∀ s slots e slots', Follows s slots → Slot.Takes slots e slots' → Follows (push s e) slots')
    {s : σ} (hs : Follows s []) {events : List Event} {p : Place} (h : Place.Reached events p) :
    Follows (events.foldl push s) p.slots := by
  induction h with
  | start => exact hs
  | step _ he ih =>
    rw [List.foldl_append]
    exact hstep _ _ _ _ ih he.slots

section Slots

variable {slots slots' inner outer : List Slot} {slot : Slot} {e : Event} {n : Nat}

/-- Behind a value the innermost container is of the same kind, and the others are as they were. -/
lemma Slot.drop_behind (h : slots.drop n = slot :: outer) :
    ∃ slot', (Slot.behind slots).drop n = slot' :: outer ∧ slot'.kind = slot.kind := by
  unfold Slot.behind
  split
  · next slots =>
    cases n with
    | zero =>
      obtain ⟨rfl, rfl⟩ := List.cons.inj h
      exact ⟨.key, rfl, rfl⟩
    | succ n => exact ⟨slot, h, rfl⟩
  · exact ⟨slot, h, rfl⟩

/-- A value inside an array changes nothing in the containers around the array. -/
lemma Slot.behind_append_item (inner outer : List Slot) :
    Slot.behind (inner ++ .item :: outer) = Slot.behind inner ++ .item :: outer := by
  match inner with
  | [] => rfl
  | .item :: inner => rfl
  | .value :: inner => rfl
  | .key :: inner => rfl

/-- What awaits a value inside an array awaits it without what is around the array. -/
lemma Slot.AwaitValue.of_append_item (h : Slot.AwaitValue (inner ++ .item :: outer)) :
    Slot.AwaitValue inner := by
  cases inner with
  | nil => simp [Slot.AwaitValue]
  | cons slot inner => exact h

/-- Inside an array an event concerns the containers in it alone, unless it is the end of the array. -/
lemma Slot.Takes.of_append_item (h : Slot.Takes (inner ++ .item :: outer) e slots') :
    (inner = [] ∧ e = .arrayEnd) ∨
      ∃ inner', slots' = inner' ++ .item :: outer ∧ Slot.Takes inner e inner' := by
  generalize hslots : inner ++ .item :: outer = slots at h
  cases h with
  | scalar value hvalue =>
    subst hslots
    exact .inr ⟨_, Slot.behind_append_item _ _, .scalar value hvalue.of_append_item⟩
  | arrayStart hvalue =>
    subst hslots
    exact .inr ⟨.item :: inner, rfl, .arrayStart hvalue.of_append_item⟩
  | objectStart hvalue =>
    subst hslots
    exact .inr ⟨.key :: inner, rfl, .objectStart hvalue.of_append_item⟩
  | key name =>
    cases inner with
    | nil => cases hslots
    | cons slot inner =>
      obtain ⟨rfl, rfl⟩ := List.cons.inj hslots
      exact .inr ⟨.value :: inner, rfl, .key name⟩
  | arrayEnd hvalue =>
    cases inner with
    | nil => exact .inl ⟨rfl, rfl⟩
    | cons slot inner =>
      obtain ⟨rfl, rfl⟩ := List.cons.inj hslots
      exact .inr ⟨_, Slot.behind_append_item _ _, .arrayEnd hvalue.of_append_item⟩
  | objectEnd hvalue =>
    cases inner with
    | nil => cases hslots
    | cons slot inner =>
      obtain ⟨rfl, rfl⟩ := List.cons.inj hslots
      exact .inr ⟨_, Slot.behind_append_item _ _, .objectEnd hvalue.of_append_item⟩

end Slots

/-! ### Assembling values -/

namespace Json

/-- The innermost container is no object without a pending key. -/
def Frame.Keyed (frames : List Frame) : Prop :=
  ∀ fields rest, frames ≠ .object fields none :: rest

/-- A container takes what may come next. -/
inductive Frame.Fits : Slot → Frame → Prop
  | item (reversed : List Json) : Fits .item (.array reversed)
  | value (fields : List (String × Json)) (key : String) : Fits .value (.object fields (some key))
  | key (fields : List (String × Json)) : Fits .key (.object fields none)

namespace Assembler

/-- The event has its place in the open containers. A key stands directly in an object and behind no other
key, an end belongs to a container of its kind, and what is begun or ended has a key if it stands in an
object. -/
def Takes (a : Assembler) : Event → Prop
  | .key _ => ∃ fields rest, a.frames = .object fields none :: rest
  | .arrayEnd => ∃ reversed rest, a.frames = .array reversed :: rest ∧ Frame.Keyed rest
  | .objectEnd => ∃ fields rest, a.frames = .object fields none :: rest ∧ Frame.Keyed rest
  | _ => Frame.Keyed a.frames

/-- The open containers take what may come next. -/
def Follows (a : Assembler) (slots : List Slot) : Prop :=
  List.Forall₂ Frame.Fits slots a.frames

variable {a : Assembler} {slots slots' : List Slot} {e : Event} {frames : List Frame}

/-- Where a value comes next the innermost object has a pending key. -/
lemma keyed_of_fits (h : List.Forall₂ Frame.Fits slots frames) (hvalue : Slot.AwaitValue slots) :
    Frame.Keyed frames := by
  rintro fields rest rfl
  obtain ⟨slot, slots, hfits, -, rfl⟩ := List.forall₂_cons_right_iff.1 h
  cases hfits
  exact hvalue rfl

/-- A finished value goes where one may come next. -/
lemma follows_complete (h : List.Forall₂ Frame.Fits slots frames) (hvalue : Slot.AwaitValue slots)
    (value : Json) : (complete ⟨frames⟩ value).1.Follows (Slot.behind slots) := by
  cases h with
  | nil => exact .nil
  | cons hfits hrest =>
    cases hfits with
    | item reversed => exact .cons (.item _) hrest
    | value fields key => exact .cons (.key _) hrest
    | key fields => exact absurd rfl hvalue

/-- An event that may come next has its place, and leads to the next one. -/
lemma Follows.push (h : a.Follows slots) (he : Slot.Takes slots e slots') :
    a.Takes e ∧ (a.push e).1.Follows slots' := by
  obtain ⟨frames⟩ := a
  cases he with
  | scalar value hvalue => exact ⟨keyed_of_fits h hvalue, follows_complete h hvalue value⟩
  | arrayStart hvalue => exact ⟨keyed_of_fits h hvalue, .cons (.item []) h⟩
  | objectStart hvalue => exact ⟨keyed_of_fits h hvalue, .cons (.key []) h⟩
  | key name =>
    obtain ⟨frame, rest, hfits, hrest, rfl⟩ := List.forall₂_cons_left_iff.1 h
    cases hfits with
    | key fields => exact ⟨⟨fields, rest, rfl⟩, .cons (.value fields name) hrest⟩
  | arrayEnd hvalue =>
    obtain ⟨frame, rest, hfits, hrest, rfl⟩ := List.forall₂_cons_left_iff.1 h
    cases hfits with
    | item reversed =>
      exact ⟨⟨reversed, rest, rfl, keyed_of_fits hrest hvalue⟩, follows_complete hrest hvalue _⟩
  | objectEnd hvalue =>
    obtain ⟨frame, rest, hfits, hrest, rfl⟩ := List.forall₂_cons_left_iff.1 h
    cases hfits with
    | key fields =>
      exact ⟨⟨fields, rest, rfl, keyed_of_fits hrest hvalue⟩, follows_complete hrest hvalue _⟩

/-- An assembler takes its events one after the other. -/
lemma pushAll_fst (a : Assembler) (events : List Event) :
    (a.pushAll events).1 = events.foldl (fun a e => (a.push e).1) a := by
  unfold pushAll
  generalize ([] : List Json) = values
  induction events generalizing a values with
  | nil => rfl
  | cons e events ih => exact ih _ _

/-- Along the way to a place an assembler follows. -/
lemma follows_pushAll {events : List Event} {p : Place} (h : Place.Reached events p) :
    (pushAll {} events).1.Follows p.slots := by
  rw [pushAll_fst]
  exact h.foldl (fun _ _ _ _ ha he => (ha.push he).2) .nil

end Assembler

end Json

/-! ### Building shapes -/

namespace ShapeFrame

/-- The kind of the container. -/
def kind : ShapeFrame → Container
  | object _ _ _ => .object
  | array _ _ _ => .array

/-- The innermost container is no object without a pending key. -/
def Keyed (frames : List ShapeFrame) : Prop :=
  ∀ fields cut rest, frames ≠ .object fields none cut :: rest

/-- A container that is not truncated takes what may come next. -/
inductive Fits : Slot → ShapeFrame → Prop
  | item (length : Nat) (items : Option Shape) : Fits .item (.array length items false)
  | value (fields : List Shape.Field) (key : String) : Fits .value (.object fields (some key) false)
  | key (fields : List Shape.Field) : Fits .key (.object fields none false)

end ShapeFrame

namespace ShapeBuilder

/-- The event has its place in the open containers. Inside one below a truncated one it changes their
number alone, and directly in a truncated one a value is only counted; otherwise it has its place as in an
assembler. -/
def Takes (b : ShapeBuilder) (e : Event) : Prop :=
  if b.skipping > 0 then b.inTruncated = true
  else
    match e with
    | .key _ => ∃ fields key cut rest, b.frames = .object fields key cut :: rest ∧ (cut = true ∨ key = none)
    | .arrayEnd =>
      ∃ length items cut rest, b.frames = .array length items cut :: rest ∧ ShapeFrame.Keyed rest
    | .objectEnd =>
      ∃ fields key cut rest, b.frames = .object fields key cut :: rest ∧ (cut = true ∨ key = none) ∧
        ShapeFrame.Keyed rest
    | _ => b.inTruncated = true ∨ ShapeFrame.Keyed b.frames

/-- The open containers take what may come next; only the innermost one may be truncated, and then there
are as many open below it as are skipped. -/
inductive Follows (b : ShapeBuilder) (slots : List Slot) : Prop
  | whole (hskipping : b.skipping = 0) (hfits : List.Forall₂ ShapeFrame.Fits slots b.frames)
  | truncated {frame : ShapeFrame} {rest : List ShapeFrame} {slot : Slot} {outer : List Slot}
    (hframes : b.frames = frame :: rest) (hcut : frame.truncated = true)
    (hslots : slots.drop b.skipping = slot :: outer) (hkind : slot.kind = frame.kind)
    (hfits : List.Forall₂ ShapeFrame.Fits outer rest)

variable {b : ShapeBuilder} {slots slots' : List Slot} {e : Event} {frames : List ShapeFrame}

/-- Where a value comes next the innermost object has a pending key. -/
lemma keyed_of_fits (h : List.Forall₂ ShapeFrame.Fits slots frames) (hvalue : Slot.AwaitValue slots) :
    ShapeFrame.Keyed frames := by
  rintro fields cut rest rfl
  obtain ⟨slot, slots, hfits, -, rfl⟩ := List.forall₂_cons_right_iff.1 h
  cases hfits
  exact hvalue rfl

/-- Containers that take what may come next are not truncated. -/
lemma inTruncated_eq_false (h : List.Forall₂ ShapeFrame.Fits slots b.frames) : b.inTruncated = false := by
  unfold inTruncated
  generalize b.frames = frames at h
  cases h with
  | nil => rfl
  | cons hfits _ => cases hfits <;> rfl

/-- A finished value goes where one may come next. -/
lemma follows_complete (hskipping : b.skipping = 0) (h : List.Forall₂ ShapeFrame.Fits slots b.frames)
    (hvalue : Slot.AwaitValue slots) (node : Shape) : (b.complete node).Follows (Slot.behind slots) := by
  obtain ⟨options, frames, skipping, root⟩ := b
  cases h with
  | nil => exact .whole hskipping .nil
  | cons hfits hrest =>
    cases hfits with
    | item length items => exact .whole hskipping (.cons (.item _ _) hrest)
    | value fields key => exact .whole hskipping (.cons (.key _) hrest)
    | key fields => exact absurd rfl hvalue

/-- A container that ends goes where a value may come next. -/
lemma follows_closeFrame {frame : ShapeFrame} {rest : List ShapeFrame} (hskipping : b.skipping = 0)
    (hframes : b.frames = frame :: rest) (h : List.Forall₂ ShapeFrame.Fits slots rest)
    (hvalue : Slot.AwaitValue slots) : b.closeFrame.Follows (Slot.behind slots) := by
  rw [closeFrame, hframes]
  exact follows_complete (b := { b with frames := rest }) hskipping h hvalue frame.shape

/-- A container that begins is truncated or not. -/
lemma follows_openFrame {slot : Slot} {frame : Bool → ShapeFrame} (hskipping : b.skipping = 0)
    (h : List.Forall₂ ShapeFrame.Fits slots b.frames) (hfits : ShapeFrame.Fits slot (frame false))
    (hcut : (frame true).truncated = true) (hkind : slot.kind = (frame true).kind) :
    (b.openFrame frame).Follows (slot :: slots) := by
  rw [openFrame, inTruncated_eq_false h, if_neg Bool.false_ne_true]
  by_cases hdeep : b.frames.length > b.options.maxDepth
  · rw [decide_eq_true hdeep]
    refine .truncated rfl hcut ?_ hkind h
    rw [hskipping]
    rfl
  · rw [decide_eq_false hdeep]
    exact .whole hskipping (.cons hfits h)

/-- Where no container is truncated, an event has its place as in an assembler. -/
lemma Follows.push_of_fits (hskipping : b.skipping = 0) (h : List.Forall₂ ShapeFrame.Fits slots b.frames)
    (he : Slot.Takes slots e slots') : b.Takes e ∧ (b.push e).Follows slots' := by
  have hnot : ¬ b.skipping > 0 := by omega
  have hcut := inTruncated_eq_false h
  unfold Takes ShapeBuilder.push
  rw [if_neg hnot, if_neg hnot]
  cases he with
  | scalar value hvalue =>
    refine ⟨.inr (keyed_of_fits h hvalue), ?_⟩
    simp only [hcut]
    exact follows_complete hskipping h hvalue _
  | arrayStart hvalue =>
    exact ⟨.inr (keyed_of_fits h hvalue), follows_openFrame hskipping h (.item 0 none) rfl rfl⟩
  | objectStart hvalue =>
    exact ⟨.inr (keyed_of_fits h hvalue), follows_openFrame hskipping h (.key []) rfl rfl⟩
  | key name =>
    obtain ⟨frame, rest, hfits, hrest, hframes⟩ := List.forall₂_cons_left_iff.1 h
    cases hfits with
    | key fields =>
      refine ⟨⟨fields, none, false, rest, hframes, .inr rfl⟩, ?_⟩
      simp only [hframes]
      exact .whole hskipping (.cons (.value fields name) hrest)
  | arrayEnd hvalue =>
    obtain ⟨frame, rest, hfits, hrest, hframes⟩ := List.forall₂_cons_left_iff.1 h
    cases hfits with
    | item length items =>
      refine ⟨⟨length, items, false, rest, hframes, keyed_of_fits hrest hvalue⟩, ?_⟩
      exact follows_closeFrame hskipping hframes hrest hvalue
  | objectEnd hvalue =>
    obtain ⟨frame, rest, hfits, hrest, hframes⟩ := List.forall₂_cons_left_iff.1 h
    cases hfits with
    | key fields =>
      refine ⟨⟨fields, none, false, rest, hframes, .inr rfl, keyed_of_fits hrest hvalue⟩, ?_⟩
      exact follows_closeFrame hskipping hframes hrest hvalue

section Truncated

variable {frame : ShapeFrame} {rest : List ShapeFrame} {slot : Slot} {outer : List Slot}

/-- What comes next comes directly in the innermost container, and so in a truncated one. -/
lemma inTruncated_eq_true (hframes : b.frames = frame :: rest) (hcut : frame.truncated = true) :
    b.inTruncated = true := by
  rw [inTruncated, hframes]
  exact hcut

/-- Below a truncated container beginnings and ends are counted. -/
lemma follows_push_of_skipping (hskipping : b.skipping > 0) (hframes : b.frames = frame :: rest)
    (hcut : frame.truncated = true) (hslots : slots.drop b.skipping = slot :: outer)
    (hkind : slot.kind = frame.kind) (hfits : List.Forall₂ ShapeFrame.Fits outer rest)
    (he : Slot.Takes slots e slots') : (b.push e).Follows slots' := by
  obtain ⟨n, hn⟩ : ∃ n, b.skipping = n + 1 := Nat.exists_eq_add_one.2 hskipping
  rw [hn] at hslots
  unfold ShapeBuilder.push
  rw [if_pos hskipping, hn]
  -- behind a value the truncated container may be the innermost one, with another key to come
  have hbehind : ∀ {m : Nat} {inside : List Slot} {b' : ShapeBuilder}, inside.drop m = slot :: outer →
      b'.frames = frame :: rest → b'.skipping = m → b'.Follows (Slot.behind inside) := by
    rintro m inside b' hdrop hframes' rfl
    obtain ⟨slot', hdrop', hkind'⟩ := Slot.drop_behind hdrop
    exact .truncated hframes' hcut hdrop' (hkind'.trans hkind) hfits
  cases he with
  | scalar value hvalue => exact hbehind hslots hframes hn
  | arrayStart hvalue => exact .truncated hframes hcut hslots hkind hfits
  | objectStart hvalue => exact .truncated hframes hcut hslots hkind hfits
  | key name =>
    refine .truncated hframes hcut ?_ hkind hfits
    show List.drop b.skipping _ = _
    rw [hn]
    exact hslots
  | arrayEnd hvalue => exact hbehind hslots hframes rfl
  | objectEnd hvalue => exact hbehind hslots hframes rfl

/-- Counting a value leaves a container truncated and of its kind. -/
lemma exists_frames_countTruncated (hframes : b.frames = frame :: rest) (hcut : frame.truncated = true) :
    ∃ frame', b.countTruncated.frames = frame' :: rest ∧ frame'.truncated = true ∧
      frame'.kind = frame.kind := by
  cases frame with
  | object fields key cut =>
    have hcount : b.countTruncated = b := by rw [countTruncated, hframes]
    exact ⟨.object fields key cut, hcount.symm ▸ hframes, hcut, rfl⟩
  | array length items cut =>
    have hcount : b.countTruncated = { b with frames := .array (length + 1) items cut :: rest } := by
      rw [countTruncated, hframes]
    exact ⟨.array (length + 1) items cut, congrArg ShapeBuilder.frames hcount, hcut, rfl⟩

/-- Counting a value opens no container. -/
lemma skipping_countTruncated (b : ShapeBuilder) : b.countTruncated.skipping = b.skipping := by
  unfold countTruncated
  split
  · rfl
  · rfl

/-- Directly in a truncated container values are counted, and its end leads out of it. -/
lemma follows_push_of_inTruncated (hskipping : b.skipping = 0) (hframes : b.frames = frame :: rest)
    (hcut : frame.truncated = true) (hkind : slot.kind = frame.kind)
    (hfits : List.Forall₂ ShapeFrame.Fits outer rest) (he : Slot.Takes (slot :: outer) e slots') :
    b.Takes e ∧ (b.push e).Follows slots' := by
  have hnot : ¬ b.skipping > 0 := by omega
  have hin := inTruncated_eq_true hframes hcut
  have hcount := skipping_countTruncated b
  obtain ⟨frame', hframes', hcut', hkind'⟩ := exists_frames_countTruncated hframes hcut
  have hslot : slot.kind = frame'.kind := hkind.trans hkind'.symm
  unfold Takes ShapeBuilder.push
  rw [if_neg hnot, if_neg hnot]
  generalize hslots : slot :: outer = slots at he
  -- Nothing is skipped yet, so the slot of the truncated container is the innermost one.
  cases he with
  | scalar value hvalue =>
    refine ⟨.inl hin, ?_⟩
    simp only [hin, if_true]
    have hinside : slots.drop 0 = slot :: outer := hslots.symm
    obtain ⟨slot', hdrop, hsame⟩ := Slot.drop_behind hinside
    refine .truncated hframes' hcut' ?_ (hsame.trans hslot) hfits
    rw [hcount, hskipping]
    exact hdrop
  | arrayStart hvalue =>
    refine ⟨.inl hin, ?_⟩
    simp only [openFrame, hin, if_true]
    exact .truncated hframes' hcut' hslots.symm hslot hfits
  | objectStart hvalue =>
    refine ⟨.inl hin, ?_⟩
    simp only [openFrame, hin, if_true]
    exact .truncated hframes' hcut' hslots.symm hslot hfits
  | key name =>
    obtain ⟨rfl, rfl⟩ := List.cons.inj hslots
    cases frame with
    | array length items cut => cases hkind
    | object fields key cut =>
      refine ⟨⟨fields, key, cut, rest, hframes, .inl hcut⟩, ?_⟩
      simp only [hframes]
      have hdrop : List.drop b.skipping (Slot.value :: outer) = Slot.value :: outer := by
        rw [hskipping]
        rfl
      exact .truncated rfl hcut hdrop rfl hfits
  | arrayEnd hvalue =>
    obtain ⟨rfl, rfl⟩ := List.cons.inj hslots
    cases frame with
    | object fields key cut => cases hkind
    | array length items cut =>
      exact ⟨⟨length, items, cut, rest, hframes, keyed_of_fits hfits hvalue⟩,
        follows_closeFrame hskipping hframes hfits hvalue⟩
  | objectEnd hvalue =>
    obtain ⟨rfl, rfl⟩ := List.cons.inj hslots
    cases frame with
    | array length items cut => cases hkind
    | object fields key cut =>
      exact ⟨⟨fields, key, cut, rest, hframes, .inl hcut, keyed_of_fits hfits hvalue⟩,
        follows_closeFrame hskipping hframes hfits hvalue⟩

end Truncated

/-- An event that may come next has its place, and leads to the next one. -/
lemma Follows.push (h : b.Follows slots) (he : Slot.Takes slots e slots') :
    b.Takes e ∧ (b.push e).Follows slots' := by
  cases h with
  | whole hskipping hfits => exact Follows.push_of_fits hskipping hfits he
  | truncated hframes hcut hslots hkind hfits =>
    by_cases hskipping : b.skipping > 0
    · refine ⟨?_, follows_push_of_skipping hskipping hframes hcut hslots hkind hfits he⟩
      unfold Takes
      rw [if_pos hskipping]
      exact inTruncated_eq_true hframes hcut
    · have hzero : b.skipping = 0 := by omega
      rw [hzero, List.drop_zero] at hslots
      exact follows_push_of_inTruncated hzero hframes hcut hkind hfits (hslots ▸ he)

/-- Along the way to a place a shape builder follows. -/
lemma follows_pushAll {events : List Event} {p : Place} (h : Place.Reached events p) (options : ShapeOptions)
    (root : Option Shape) : (pushAll { options, root } events).Follows p.slots :=
  h.foldl (fun _ _ _ _ hb he => (hb.push he).2) (.whole rfl .nil)

end ShapeBuilder

/-! ### Seeking elements -/

namespace Extractor

/-- The event has its place. Before the target an end and a key belong to the innermost container, and
what begins in an object stands under a key; inside the target the event ends it or has its place in what
is assembled. -/
def Takes : Extractor → Event → Prop
  | .seeking ancestors _, .key _ => ∃ outer key, ancestors = outer ++ [⟨.object, key⟩]
  | .seeking ancestors _, .objectEnd => ∃ outer key, ancestors = outer ++ [⟨.object, key⟩]
  | .seeking ancestors _, .arrayEnd => ∃ outer key, ancestors = outer ++ [⟨.array, key⟩]
  | .seeking ancestors pendingKey, _ =>
    ∀ outer key, ancestors = outer ++ [⟨.object, key⟩] → pendingKey.isSome = true
  | .streaming assembler, e => closesTarget assembler e = true ∨ assembler.Takes e
  | .draining, _ => True

/-- Before the target the ancestors are the open containers, and a key is pending where its value comes
next. Inside the target the assembler holds the containers that are open in it. -/
inductive Follows : Extractor → List Slot → Prop
  | seeking {ancestors : List Ancestor} {pendingKey : Option String} {slots : List Slot}
    (hkinds : ancestors.map Ancestor.kind = (slots.map Slot.kind).reverse)
    (hkey : pendingKey.isSome = true ↔ slots.head? = some .value) :
    Follows (.seeking ancestors pendingKey) slots
  | streaming {assembler : Assembler} {inner outer : List Slot} (h : assembler.Follows inner) :
    Follows (.streaming assembler) (inner ++ .item :: outer)
  | draining (slots : List Slot) : Follows .draining slots

variable {ancestors : List Ancestor} {pendingKey : Option String} {slots slots' : List Slot} {slot : Slot}
  {x : Extractor} {e : Event}

/-- The last ancestor is the innermost container. -/
lemma exists_ancestor (h : ancestors.map Ancestor.kind = ((slot :: slots).map Slot.kind).reverse) :
    ∃ outer key, ancestors = outer ++ [⟨slot.kind, key⟩] ∧
      outer.map Ancestor.kind = (slots.map Slot.kind).reverse := by
  rw [List.map_cons, List.reverse_cons] at h
  obtain ⟨outer, last, rfl, houter, hlast⟩ := List.map_eq_append_iff.1 h
  obtain ⟨⟨kind, key⟩, rfl, rfl⟩ := List.map_eq_singleton_iff.1 hlast
  exact ⟨outer, key, rfl, houter⟩

/-- Where a value may come next in an object, its key is pending. -/
lemma isSome_pendingKey (hkinds : ancestors.map Ancestor.kind = (slots.map Slot.kind).reverse)
    (hkey : pendingKey.isSome = true ↔ slots.head? = some .value) (hvalue : Slot.AwaitValue slots) :
    ∀ outer key, ancestors = outer ++ [⟨.object, key⟩] → pendingKey.isSome = true := by
  rintro outer key rfl
  cases slots with
  | nil => simp at hkinds
  | cons slot slots =>
    obtain ⟨outer', key', hsame, -⟩ := exists_ancestor hkinds
    have hkind : Container.object = slot.kind :=
      congrArg Ancestor.kind (List.singleton_inj.1 (List.append_inj' hsame rfl).2)
    cases slot with
    | item => cases hkind
    | value => exact hkey.2 rfl
    | key => exact absurd rfl hvalue

/-- Behind a value no key is pending. -/
lemma isSome_none_iff_head?_behind (slots : List Slot) :
    (none : Option String).isSome = true ↔ (Slot.behind slots).head? = some .value := by
  match slots with
  | [] => simp [Slot.behind]
  | .item :: slots => simp [Slot.behind]
  | .value :: slots => simp [Slot.behind]
  | .key :: slots => simp [Slot.behind]

/-- Before the target the end of a container leads out of it. -/
lemma follows_dropLast (hkinds : ancestors.map Ancestor.kind = ((slot :: slots).map Slot.kind).reverse)
    (hkey : pendingKey.isSome = true ↔ (slot :: slots).head? = some .value) (hslot : slot ≠ .value) :
    (∃ outer key, ancestors = outer ++ [⟨slot.kind, key⟩]) ∧
      (seeking ancestors.dropLast pendingKey).Follows (Slot.behind slots) := by
  obtain ⟨outer, key, rfl, houter⟩ := exists_ancestor hkinds
  have hnone : pendingKey = none := by
    cases pendingKey with
    | none => rfl
    | some name => exact absurd (Option.some.inj (hkey.1 rfl)) hslot
  subst hnone
  refine ⟨⟨outer, key, rfl⟩, .seeking ?_ (isSome_none_iff_head?_behind slots)⟩
  rw [List.dropLast_concat, Slot.map_kind_behind, houter]

/-- Before the target the beginning of a container leads into it. -/
lemma follows_concat (slot : Slot) (hslot : slot ≠ .value) (key : Option String)
    (hkinds : ancestors.map Ancestor.kind = (slots.map Slot.kind).reverse) :
    (seeking (ancestors ++ [⟨slot.kind, key⟩]) none).Follows (slot :: slots) := by
  have hkinds' : (ancestors ++ [Ancestor.mk slot.kind key]).map Ancestor.kind =
      ((slot :: slots).map Slot.kind).reverse := by simp [hkinds]
  exact .seeking hkinds' (by simp [hslot])

/-- Before the target an event that may come next has its place, and leads to the next one. -/
lemma follows_seek (target : List String)
    (hkinds : ancestors.map Ancestor.kind = (slots.map Slot.kind).reverse)
    (hkey : pendingKey.isSome = true ↔ slots.head? = some .value) (he : Slot.Takes slots e slots') :
    (seeking ancestors pendingKey).Takes e ∧ (seek target ancestors pendingKey e).Follows slots' := by
  cases he with
  | scalar value hvalue =>
    refine ⟨isSome_pendingKey hkinds hkey hvalue, .seeking ?_ (isSome_none_iff_head?_behind slots)⟩
    rw [hkinds, Slot.map_kind_behind]
  | arrayStart hvalue =>
    refine ⟨isSome_pendingKey hkinds hkey hvalue, ?_⟩
    rw [seek]
    split
    · show Follows _ ([] ++ .item :: slots)
      exact .streaming .nil
    · exact follows_concat .item (by decide) pendingKey hkinds
  | objectStart hvalue =>
    exact ⟨isSome_pendingKey hkinds hkey hvalue, follows_concat .key (by decide) pendingKey hkinds⟩
  | @key slots name =>
    obtain ⟨outer, key, rfl, houter⟩ := exists_ancestor hkinds
    exact ⟨⟨outer, key, rfl⟩, .seeking hkinds (by simp)⟩
  | arrayEnd hvalue => exact follows_dropLast hkinds hkey (by decide)
  | objectEnd hvalue => exact follows_dropLast hkinds hkey (by decide)

/-- An event that may come next has its place, and leads to the next one. -/
lemma Follows.push (target : List String) (h : x.Follows slots) (he : Slot.Takes slots e slots') :
    x.Takes e ∧ (x.push target e).1.Follows slots' := by
  cases h with
  | seeking hkinds hkey => exact follows_seek target hkinds hkey he
  | draining => exact ⟨trivial, .draining slots'⟩
  | @streaming assembler inner outer h =>
    rw [Extractor.push]
    cases hclose : closesTarget assembler e with
    | true => exact ⟨.inl hclose, .draining slots'⟩
    | false =>
      rcases he.of_append_item with ⟨rfl, rfl⟩ | ⟨inner', rfl, hinner⟩
      · have hframes : assembler.frames = [] := List.forall₂_nil_left_iff.1 h
        simp [closesTarget, Assembler.isIdle, hframes] at hclose
      · obtain ⟨htakes, hfollows⟩ := h.push hinner
        exact ⟨.inr htakes, .streaming hfollows⟩

/-- An extractor takes its events one after the other. -/
lemma pushAll_fst (target : List String) (x : Extractor) (events : List Event) :
    (pushAll target x events).1 = events.foldl (fun x e => (x.push target e).1) x := by
  induction events generalizing x with
  | nil => rfl
  | cons e events ih => exact ih _

/-- Along the way to a place an extractor follows. -/
lemma follows_pushAll {events : List Event} {p : Place} (h : Place.Reached events p) (target : List String) :
    (pushAll target .start events).1.Follows p.slots := by
  rw [pushAll_fst]
  exact h.foldl (fun _ _ _ _ hx he => (hx.push target he).2) (.seeking rfl (by simp))

end Extractor

/-! ### Events that a tokenizer gives -/

open Tokenizer (Emits)

/-- However a tokenizer is fed and pulled at, its events so far begin those of a document, also when the
text turns out malformed; its depth is the number of containers that began and did not end; and it is
finished only behind all events of a document. Every event has its place in what an assembler, a shape
builder and an extractor hold when it comes: none of them needs a key that is missing, and none closes a
container that is not open. -/
theorem emits_wellFormed {maxTokenBytes : Nat} {t : Tokenizer} {events : List Event}
    (h : Emits maxTokenBytes t events) :
    (∃ d : Document, events <+: d.events) ∧
      t.depth + events.countP Event.closes = events.countP Event.opens ∧
      (∀ t', t.pull = .ok (.finished, t') → ∃ d : Document, events = d.events) ∧
      ∀ before e, before ++ [e] <+: events →
        (Assembler.pushAll {} before).1.Takes e ∧
        (∀ options root, (ShapeBuilder.pushAll { options, root } before).Takes e) ∧
        ∀ target, (Extractor.pushAll target .start before).1.Takes e := by
  obtain ⟨p, hreached, hstands⟩ := h.exists_standsAt
  refine ⟨?_, ?_, ?_, ?_⟩
  · rw [← hreached.events_eq]
    exact p.exists_isPrefix_events
  · rw [Tokenizer.depth, hstands.stack, List.length_map]
    exact hreached.length_slots
  · intro t' hp
    obtain ⟨-, d, rfl⟩ := hstands.of_finished hp
    exact ⟨d, hreached.events_eq.symm⟩
  · intro before e hbefore
    obtain ⟨q, q', hq, htakes⟩ := hreached.exists_takes hbefore
    have hslots := htakes.slots
    refine ⟨((Assembler.follows_pushAll hq).push hslots).1, ?_, ?_⟩
    · intro options root
      exact ((ShapeBuilder.follows_pushAll hq options root).push hslots).1
    · intro target
      exact ((Extractor.follows_pushAll hq target).push target hslots).1

/-- The text `[}`, which gives one event before its fault. -/
theorem emits_wellFormed_of_fault : ∃ t, Emits 8 t [.arrayStart] ∧ (∃ e, t.pull = .error e) ∧
    (∃ d : Document, [Event.arrayStart] <+: d.events) ∧ t.depth = 1 ∧
      ∀ target, (Extractor.pushAll target .start []).1.Takes .arrayStart := by
  have hrun : Emits 8 _ [.arrayStart] := .event (.feed .start [0x5b, 0x7d]) rfl
  obtain ⟨hdocument, hdepth, -, hfollowers⟩ := emits_wellFormed hrun
  exact ⟨_, hrun, ⟨_, rfl⟩, hdocument, hdepth, (hfollowers [] .arrayStart List.prefix_rfl).2.2⟩

end EntityDump
