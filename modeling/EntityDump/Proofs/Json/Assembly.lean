import EntityDump.Json.Assembler
import EntityDump.Proofs.Json.Ordered
/-!
# Assembling documents

Whatever containers are open, the events of a document complete its value in the innermost of them, with the last
event, and those before leave what was open as it was: `completes_events`. With none open the value is given back
(`pushAll_events`); what becomes of the innermost container otherwise, and event by event, is said by
`pushAll_events_compositional`.
-/

namespace EntityDump.Json

namespace Assembler

variable {a b c : Assembler} {e : Event} {events events' : List Event} {value : Json}

/-! ### Taking events at once -/

lemma pushAll_cons (a : Assembler) (e : Event) (events : List Event) :
    a.pushAll (e :: events) =
      (((a.push e).1.pushAll events).1, (a.push e).2.toList ++ ((a.push e).1.pushAll events).2) := by
  -- The values are collected behind those from before.
  have hfold : ∀ (a : Assembler) (before : List Json),
      let collect := fun (state : Assembler × List Json) event =>
        ((state.1.push event).1, state.2 ++ (state.1.push event).2.toList)
      events.foldl collect (a, before) =
        ((events.foldl collect (a, [])).1, before ++ (events.foldl collect (a, [])).2) := by
    induction events with
    | nil => simp
    | cons e events ih =>
      intro a before
      dsimp only at ih ⊢
      rw [List.foldl_cons, List.foldl_cons, ih _ (before ++ _), ih _ ([] ++ _), List.nil_append, List.append_assoc]
  exact hfold (a.push e).1 (a.push e).2.toList

/-- Events that are taken one by one lead from one assembler to another and complete values on the way.
None of them ends an array that was not begun. -/
inductive Collects : Assembler → List Event → Assembler → List Json → Prop
  | nil (a : Assembler) : Collects a [] a []
  | cons {a a' : Assembler} {e : Event} {events : List Event} {values : List Json} :
      (e = .arrayEnd → a.isIdle = false) → Collects (a.push e).1 events a' values →
      Collects a (e :: events) a' ((a.push e).2.toList ++ values)

/-- Values are collected one after the other. -/
lemma Collects.append {values values' : List Json} (h : a.Collects events b values)
    (h' : b.Collects events' c values') : a.Collects (events ++ events') c (values ++ values') := by
  induction h with
  | nil => exact h'
  | cons hidle _ ih =>
    rw [List.append_assoc]
    exact .cons hidle (ih h')

/-- Taking the events at once comes to the same. -/
lemma Collects.pushAll_eq {values : List Json} (h : a.Collects events b values) :
    a.pushAll events = (b, values) := by
  induction h with
  | nil => rfl
  | cons _ _ ih => rw [pushAll_cons, ih]

/-! ### Inside a value -/

/-- Events that are taken one by one give nothing back, and behind each of them containers are open inside those of
the base, which are as they were. None of the events ends an array that was not begun. -/
inductive Inside (base : List Frame) : Assembler → List Event → Assembler → Prop
  | nil (a : Assembler) : Inside base a [] a
  | cons {a b : Assembler} {e : Event} {events : List Event} (opened : List Frame) :
      (e = .arrayEnd → a.isIdle = false) → opened ≠ [] → a.push e = (⟨opened ++ base⟩, none) →
      Inside base ⟨opened ++ base⟩ events b → Inside base a (e :: events) b

section Inside

variable {base : List Frame}

/-- One event. -/
lemma Inside.single (opened : List Frame) (hidle : e = .arrayEnd → a.isIdle = false) (hopened : opened ≠ [])
    (hpush : a.push e = (⟨opened ++ base⟩, none)) : Inside base a [e] ⟨opened ++ base⟩ :=
  .cons opened hidle hopened hpush (.nil _)

/-- Runs of events inside open containers follow on each other. -/
lemma Inside.append (h : Inside base a events b) (h' : Inside base b events' c) :
    Inside base a (events ++ events') c := by
  induction h with
  | nil => exact h'
  | cons opened hidle hopened hpush _ ih => exact .cons opened hidle hopened hpush (ih h')

/-- Containers inside which containers are open are open too. -/
lemma Inside.of_append (inner : List Frame) (h : Inside (inner ++ base) a events b) :
    Inside base a events b := by
  induction h with
  | nil => exact .nil _
  | cons opened hidle hopened hpush _ ih =>
    rw [← List.append_assoc] at hpush ih
    exact .cons _ hidle (List.append_ne_nil_of_left_ne_nil hopened _) hpush ih

/-- Some of the events lead to an assembler from which the others lead on. -/
lemma Inside.exists_of_append (h : Inside base a (events ++ events') c) :
    ∃ b, Inside base a events b ∧ Inside base b events' c := by
  induction events generalizing a with
  | nil => exact ⟨a, .nil a, h⟩
  | cons e events ih =>
    cases h with
    | cons opened hidle hopened hpush hrest =>
      obtain ⟨b, hevents, hevents'⟩ := ih hrest
      exact ⟨b, .cons opened hidle hopened hpush hevents, hevents'⟩

/-- On the way no value is completed. -/
lemma Inside.collects (h : Inside base a events b) : a.Collects events b [] := by
  induction h with
  | nil => exact .nil _
  | cons _ hidle _ hpush _ ih =>
    have hcons := Collects.cons hidle (by rwa [hpush])
    rwa [hpush] at hcons

end Inside

/-! ### Completing a value -/

/-- The last of some events completes a value in what is open, and the others stay inside it. -/
inductive Completes (a : Assembler) (value : Json) : List Event → Prop
  | mk {b : Assembler} {front : List Event} {last : Event} :
      Inside a.frames a front b → (last = .arrayEnd → b.isIdle = false) →
      b.push last = a.complete value → Completes a value (front ++ [last])

section Completes

variable {frame : Frame} {frames : List Frame}

/-- A value that is completed in a container is one that the containers around it do not see. -/
lemma Completes.inside (frame' : Frame) (h : Completes ⟨frame :: frames⟩ value events)
    (hcomplete : complete ⟨frame :: frames⟩ value = (⟨frame' :: frames⟩, none)) :
    Inside frames ⟨frame :: frames⟩ events ⟨frame' :: frames⟩ := by
  obtain ⟨hfront, hidle, hlast⟩ := h
  have hinside : Inside frames _ _ _ := hfront.of_append [frame]
  exact hinside.append (.single [frame'] hidle (List.cons_ne_nil _ _) (hlast.trans hcomplete))

/-- Items are put into an array that is open. -/
lemma inside_itemEvents {items : List Document}
    (hitems : ∀ d ∈ items, ∀ a : Assembler, a.Completes d.value d.events)
    (reversed : List Json) (frames : List Frame) :
    Inside frames ⟨.array reversed :: frames⟩ (Document.itemEvents items)
      ⟨.array ((Document.itemValues items).reverse ++ reversed) :: frames⟩ := by
  induction items generalizing reversed with
  | nil => exact .nil _
  | cons item items ih =>
    obtain ⟨hitem, hitems⟩ := List.forall_mem_cons.1 hitems
    have hfirst := (hitem ⟨.array reversed :: frames⟩).inside (.array (item.value :: reversed)) rfl
    rw [Document.itemEvents, Document.itemValues, List.reverse_cons, List.append_assoc]
    exact hfirst.append (ih hitems (item.value :: reversed))

/-- Fields are put into an object that is open. -/
lemma inside_fieldEvents {fields : List (String × Document)}
    (hfields : ∀ f ∈ fields, ∀ a : Assembler, a.Completes f.2.value f.2.events)
    (done : List (String × Json)) (frames : List Frame) :
    Inside frames ⟨.object done none :: frames⟩ (Document.fieldEvents fields)
      ⟨.object ((Document.fieldValues fields).foldl
        (fun acc field => Fields.insert field.1 field.2 acc) done) none :: frames⟩ := by
  induction fields generalizing done with
  | nil => exact .nil _
  | cons field fields ih =>
    obtain ⟨key, d⟩ := field
    obtain ⟨hfield, hfields⟩ := List.forall_mem_cons.1 hfields
    have hvalue := (hfield ⟨.object done (some key) :: frames⟩).inside
      (.object (Fields.insert key d.value done) none) rfl
    have hrest := hvalue.append (ih hfields (Fields.insert key d.value done))
    exact .cons [.object done (some key)] (by rintro ⟨⟩) (List.cons_ne_nil _ _) rfl hrest

/-- The events of a document complete its value. -/
theorem completes_events (d : Document) (a : Assembler) : a.Completes d.value d.events := by
  induction d using Document.induction generalizing a with
  | scalar s =>
    rw [Document.events, Document.value]
    have hwhole : a.Completes s.toJson ([] ++ [.scalar s.toJson]) := .mk (.nil a) (by rintro ⟨⟩) rfl
    exact hwhole
  | array items ih =>
    have hitems : Inside a.frames a (.arrayStart :: Document.itemEvents items) _ :=
      .cons [.array []] (by rintro ⟨⟩) (List.cons_ne_nil _ _) rfl (inside_itemEvents ih [] a.frames)
    rw [Document.events, Document.value, ← List.cons_append]
    refine .mk hitems (fun _ => rfl) ?_
    simp [push, pop, close]
  | object fields ih =>
    have hfields : Inside a.frames a (.objectStart :: Document.fieldEvents fields) _ :=
      .cons [.object [] none] (by rintro ⟨⟩) (List.cons_ne_nil _ _) rfl (inside_fieldEvents ih [] a.frames)
    rw [Document.events, Document.value, ← List.cons_append]
    exact .mk hfields (by rintro ⟨⟩) rfl

/-- On the way no other value is completed. -/
lemma Completes.collects (h : a.Completes value events) :
    a.Collects events (a.complete value).1 (a.complete value).2.toList := by
  obtain ⟨hfront, hidle, hpush⟩ := h
  have hall := hfront.collects.append (.cons hidle (.nil _))
  rwa [hpush, List.nil_append, List.append_nil] at hall

/-- The events of a document complete nothing but its value. -/
theorem collects_events (d : Document) (a : Assembler) :
    a.Collects d.events (a.complete d.value).1 (a.complete d.value).2.toList :=
  (completes_events d a).collects

/-- Taking the events of a document completes its value. -/
lemma pushAll_events_eq_complete (d : Document) (a : Assembler) :
    a.pushAll d.events = ((a.complete d.value).1, (a.complete d.value).2.toList) :=
  (collects_events d a).pushAll_eq

/-- The events of a whole document give its value back. -/
theorem pushAll_events (d : Document) : pushAll {} d.events = ({}, [d.value]) :=
  pushAll_events_eq_complete d {}

/-- An event of a value that is not the last one gives nothing back, and behind it containers are open inside those
from before, which are as they were. -/
lemma Completes.push_of_append {next : Event} (h : a.Completes value (events ++ e :: next :: events')) :
    ((a.pushAll events).1.push e).2 = none ∧
      ∃ opened, opened ≠ [] ∧ ((a.pushAll events).1.push e).1.frames = opened ++ a.frames := by
  generalize hall : events ++ e :: next :: events' = all at h
  obtain @⟨_, front, last, hfront, -, -⟩ := h
  -- The event belongs to the front, as another one comes behind it.
  have hlast : (e :: next :: events').dropLast = e :: (next :: events').dropLast := rfl
  have hsplit : events ++ e :: (next :: events').dropLast = front := by
    rw [← hlast, ← List.dropLast_append_of_ne_nil (List.cons_ne_nil _ _), hall, List.dropLast_concat]
  rw [← hsplit] at hfront
  obtain ⟨here, hbefore, hbehind⟩ := hfront.exists_of_append
  rw [hbefore.collects.pushAll_eq]
  cases hbehind with
  | cons _ _ hopened hpush _ =>
    rw [hpush]
    exact ⟨rfl, _, hopened, rfl⟩

/-- The last event of a value completes it. -/
lemma Completes.exists_push_eq (h : a.Completes value events) :
    ∃ front last, events = front ++ [last] ∧ (a.pushAll front).1.push last = a.complete value := by
  obtain ⟨hfront, -, hlast⟩ := h
  refine ⟨_, _, rfl, ?_⟩
  rw [hfront.collects.pushAll_eq]
  exact hlast

end Completes

/-- Whatever containers are open, the events of a document but the last one give nothing back and leave those
containers as they were, with others open inside; the last event completes the document's value in the innermost of
them. So the value is given back, once, if none was open, is put behind the items of an array, and takes its place in
an object under the key that is pending, which then is no longer; the other fields stay as they were. The value of an
object has under each key the value of the last field with this key. -/
theorem pushAll_events_compositional (d : Document) :
    (∀ (a : Assembler) (before : List Event) (e next : Event) (after : List Event),
        d.events = before ++ e :: next :: after →
          ((a.pushAll before).1.push e).2 = none ∧
            ∃ opened, opened ≠ [] ∧ ((a.pushAll before).1.push e).1.frames = opened ++ a.frames) ∧
      (∀ a : Assembler, ∃ front last, d.events = front ++ [last] ∧
        (a.pushAll front).1.push last = a.complete d.value) ∧
      pushAll {} d.events = ({}, [d.value]) ∧
      (∀ items frames, pushAll ⟨.array items.reverse :: frames⟩ d.events =
        (⟨.array (items ++ [d.value]).reverse :: frames⟩, [])) ∧
      (∀ fields key frames, ∃ fields', pushAll ⟨.object fields (some key) :: frames⟩ d.events =
          (⟨.object fields' none :: frames⟩, []) ∧
        (∀ k, Fields.find? k fields' = if key = k then some d.value else Fields.find? k fields) ∧
        ((fields.map (·.1)).Pairwise (· < ·) → (fields'.map (·.1)).Pairwise (· < ·))) ∧
      ∀ fields, d = .object fields → ∀ key, d.value.field? key =
        (fields.reverse.find? (·.1 = key)).map fun field => field.2.value := by
  refine ⟨?_, ?_, pushAll_events d, ?_, ?_, ?_⟩
  · intro a before e next after hevents
    have hcompletes := completes_events d a
    rw [hevents] at hcompletes
    exact hcompletes.push_of_append
  · exact fun a => (completes_events d a).exists_push_eq
  · intro items frames
    rw [pushAll_events_eq_complete, List.reverse_concat]
    rfl
  · intro fields key frames
    exact ⟨Fields.insert key d.value fields, pushAll_events_eq_complete d _,
      fun k => Fields.find?_insert key k d.value fields, Fields.pairwise_insert⟩
  · rintro fields rfl key
    exact Document.field?_value fields key

/-- An object that repeats a key comes in the place of a field inside an array. -/
theorem pushAll_events_of_repeated_key :
    let fields : List (String × Document) := [("k", .array [.scalar (.bool true)]), ("k", .scalar .null)]
    let d := Document.object fields
    let a : Assembler := ⟨[.object [("n", .bool false)] (some "n"), .array [.null]]⟩
    d.events = [.objectStart, .key "k", .arrayStart] ++
        .scalar (.bool true) :: .arrayEnd :: [.key "k", .scalar .null, .objectEnd] ∧
      ((a.pushAll [.objectStart, .key "k", .arrayStart]).1.push (.scalar (.bool true))).2 = none ∧
      (∃ fields', a.pushAll d.events = (⟨.object fields' none :: [.array [.null]]⟩, []) ∧
        Fields.find? "n" fields' = some d.value ∧ (fields'.map (·.1)).Pairwise (· < ·)) ∧
      d.value.field? "k" = (fields.reverse.find? (·.1 = "k")).map fun field => field.2.value := by
  intro fields d a
  have hevents : d.events = [.objectStart, .key "k", .arrayStart] ++
      .scalar (.bool true) :: .arrayEnd :: [.key "k", .scalar .null, .objectEnd] := rfl
  obtain ⟨hbefore, -, -, -, hobject, hvalue⟩ := pushAll_events_compositional d
  obtain ⟨fields', hpush, hfind, hkeys⟩ := hobject [("n", .bool false)] "n" [.array [.null]]
  exact ⟨hevents, (hbefore a _ _ _ _ hevents).1, ⟨fields', hpush, hfind "n", hkeys (by simp)⟩, hvalue fields rfl "k"⟩

end Assembler

end EntityDump.Json
