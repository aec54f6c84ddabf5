import EntityDump.Proofs.Json.Document
import EntityDump.Tokenizer.Basic
/-!
# Places inside a document

Between two of its events a document is read up to a place: some containers are open, and of each of them
the part in front is known (`Hole`). A place says which events may come next and where they lead
(`Place.Takes`). The events up to a place begin those of a document (`Place.exists_isPrefix_events`).

For those who follow events without keeping documents, `Place.slots` says of each open container only what
may come next in it (`Slot.Takes`).
-/

namespace EntityDump

open Json (Event Scalar Document)

/-! ### Places -/

/-- An open container with a place for a value, behind the part that is known. -/
inductive Hole where
  /-- Behind some items of an array. -/
  | item (before : List Document)
  /-- Behind some fields of an object and the next key. -/
  | field (before : List (String × Document)) (key : String)

namespace Hole

/-- The events from the start of the container to the place in it. -/
def events : Hole → List Event
  | item before => .arrayStart :: Document.itemEvents before
  | field before key => .objectStart :: (Document.fieldEvents before ++ [.key key])

/-- The events up to the place in the innermost container. -/
def allEvents : List Hole → List Event
  | [] => []
  | hole :: holes => allEvents holes ++ hole.events

/-- The document in which a value stands in some open containers and nothing behind it. -/
def plug (d : Document) : List Hole → Document
  | [] => d
  | item before :: holes => plug (.array (before ++ [d])) holes
  | field before key :: holes => plug (.object (before ++ [(key, d)])) holes

end Hole

/-- How far a document is read. The open containers stand with the innermost first. -/
inductive Place where
  /-- In front of a value, or of the end of an array. -/
  | awaiting (holes : List Hole)
  /-- In front of a key or the end of an object, behind some fields. -/
  | inObject (before : List (String × Document)) (holes : List Hole)
  /-- Behind the document. -/
  | complete (d : Document)

namespace Place

/-- The events up to a place. -/
def events : Place → List Event
  | awaiting holes => Hole.allEvents holes
  | inObject before holes => Hole.allEvents holes ++ .objectStart :: Document.fieldEvents before
  | complete d => d.events

/-- The place behind a value. -/
def behind (d : Document) : List Hole → Place
  | [] => complete d
  | .item before :: holes => awaiting (.item (before ++ [d]) :: holes)
  | .field before key :: holes => inObject (before ++ [(key, d)]) holes

/-- An event that may come next, and the place behind it. -/
inductive Takes : Place → Event → Place → Prop
  | scalar (s : Scalar) (holes : List Hole) :
    Takes (awaiting holes) (.scalar s.toJson) (behind (.scalar s) holes)
  | arrayStart (holes : List Hole) : Takes (awaiting holes) .arrayStart (awaiting (.item [] :: holes))
  | objectStart (holes : List Hole) : Takes (awaiting holes) .objectStart (inObject [] holes)
  | key (before : List (String × Document)) (name : String) (holes : List Hole) :
    Takes (inObject before holes) (.key name) (awaiting (.field before name :: holes))
  | arrayEnd (before : List Document) (holes : List Hole) :
    Takes (awaiting (.item before :: holes)) .arrayEnd (behind (.array before) holes)
  | objectEnd (before : List (String × Document)) (holes : List Hole) :
    Takes (inObject before holes) .objectEnd (behind (.object before) holes)

/-- Events that lead from the beginning of a document to a place. -/
inductive Reached : List Event → Place → Prop
  | start : Reached [] (awaiting [])
  | step {events : List Event} {p p' : Place} {e : Event} (h : Reached events p) (he : p.Takes e p') :
    Reached (events ++ [e]) p'

end Place

/-! ### Events up to a place -/

section Events

open Json.Document

variable {events before : List Event} {p p' : Place} {e : Event}

/-- The events of the last item come last. -/
lemma itemEvents_concat (items : List Document) (d : Document) :
    itemEvents (items ++ [d]) = itemEvents items ++ d.events := by
  induction items with
  | nil => simp [itemEvents]
  | cons item items ih => rw [List.cons_append, itemEvents, itemEvents, ih, List.append_assoc]

/-- The events of the last field come last, behind its key. -/
lemma fieldEvents_concat (fields : List (String × Document)) (key : String) (d : Document) :
    fieldEvents (fields ++ [(key, d)]) = fieldEvents fields ++ .key key :: d.events := by
  induction fields with
  | nil => simp [fieldEvents]
  | cons field fields ih =>
    rw [List.cons_append, fieldEvents, fieldEvents, ih]
    simp

/-- Behind a value its events are over, and nothing else. -/
lemma Place.events_behind (d : Document) (holes : List Hole) :
    (Place.behind d holes).events = Hole.allEvents holes ++ d.events := by
  match holes with
  | [] => rfl
  | .item items :: holes =>
    simp [Place.behind, Place.events, Hole.allEvents, Hole.events, itemEvents_concat]
  | .field fields key :: holes =>
    simp [Place.behind, Place.events, Hole.allEvents, Hole.events, fieldEvents_concat]

/-- An event leads to the place whose events are those so far and this one. -/
lemma Place.Takes.events_eq (h : p.Takes e p') : p'.events = p.events ++ [e] := by
  cases h with
  | scalar s holes => rw [Place.events_behind, Document.events, Place.events]
  | arrayStart holes => simp [Place.events, Hole.allEvents, Hole.events, itemEvents]
  | objectStart holes => simp [Place.events, fieldEvents]
  | key before name holes => simp [Place.events, Hole.allEvents, Hole.events]
  | arrayEnd before holes =>
    rw [Place.events_behind]
    simp [Place.events, Hole.allEvents, Hole.events, Document.events]
  | objectEnd before holes =>
    rw [Place.events_behind]
    simp [Place.events, Document.events]

/-- A place that is reached by events has these behind it. -/
lemma Place.Reached.events_eq (h : Place.Reached events p) : p.events = events := by
  induction h with
  | start => rfl
  | step _ he ih => rw [he.events_eq, ih]

/-- A value in open containers begins a document. -/
lemma Hole.isPrefix_events_plug (d : Document) (holes : List Hole) :
    allEvents holes ++ d.events <+: (plug d holes).events := by
  induction holes generalizing d with
  | nil => simp [allEvents, plug]
  | cons hole holes ih =>
    cases hole with
    | item items =>
      have houter := ih (.array (items ++ [d]))
      refine List.IsPrefix.trans ⟨[.arrayEnd], ?_⟩ houter
      simp [allEvents, Hole.events, Document.events, itemEvents_concat]
    | field fields key =>
      have houter := ih (.object (fields ++ [(key, d)]))
      refine List.IsPrefix.trans ⟨[.objectEnd], ?_⟩ houter
      simp [allEvents, Hole.events, Document.events, fieldEvents_concat]

/-- The events up to a place begin the events of a document. -/
theorem Place.exists_isPrefix_events (p : Place) : ∃ d : Document, p.events <+: d.events := by
  cases p with
  | awaiting holes =>
    refine ⟨_, List.IsPrefix.trans ?_ (Hole.isPrefix_events_plug (.scalar .null) holes)⟩
    exact List.prefix_append _ _
  | inObject before holes =>
    refine ⟨_, List.IsPrefix.trans ⟨[.objectEnd], ?_⟩ (Hole.isPrefix_events_plug (.object before) holes)⟩
    simp [Place.events, Document.events]
  | complete d => exact ⟨d, List.prefix_rfl⟩

/-- Each event on the way to a place was one that could come next. -/
lemma Place.Reached.exists_takes (h : Place.Reached events p) (hbefore : before ++ [e] <+: events) :
    ∃ q q', Place.Reached before q ∧ q.Takes e q' := by
  induction h with
  | start => simp at hbefore
  | step hreached he ih =>
    rcases List.prefix_concat_iff.1 hbefore with hsame | hshorter
    · obtain ⟨rfl, hlast⟩ := List.append_inj' hsame rfl
      obtain rfl := List.singleton_inj.1 hlast
      exact ⟨_, _, hreached, he⟩
    · exact ih hshorter

end Events

/-! ### Open containers -/

/-- What may come next in an open container: an item or the end, a value behind its key, or a key or the
end. -/
inductive Slot where
  | item
  | value
  | key
  deriving DecidableEq

namespace Slot

/-- The kind of the container. -/
def kind : Slot → Container
  | item => .array
  | value => .object
  | key => .object

/-- What may come next behind a value in the innermost of some open containers. -/
def behind : List Slot → List Slot
  | value :: slots => key :: slots
  | slots => slots

/-- A value may come next. -/
def AwaitValue (slots : List Slot) : Prop :=
  slots.head? ≠ some key

/-- An event that may come next inside open containers, and those open behind it. A container ends as it
began, and it is a value of the one around it. -/
inductive Takes : List Slot → Event → List Slot → Prop
  | scalar {slots : List Slot} (value : Json) (h : AwaitValue slots) :
    Takes slots (.scalar value) (behind slots)
  | arrayStart {slots : List Slot} (h : AwaitValue slots) : Takes slots .arrayStart (item :: slots)
  | objectStart {slots : List Slot} (h : AwaitValue slots) : Takes slots .objectStart (key :: slots)
  | key {slots : List Slot} (name : String) : Takes (key :: slots) (.key name) (value :: slots)
  | arrayEnd {slots : List Slot} (h : AwaitValue slots) : Takes (item :: slots) .arrayEnd (behind slots)
  | objectEnd {slots : List Slot} (h : AwaitValue slots) : Takes (key :: slots) .objectEnd (behind slots)

/-- A value keeps the kinds of the open containers. -/
lemma map_kind_behind (slots : List Slot) : (behind slots).map kind = slots.map kind := by
  unfold behind
  split
  · rfl
  · rfl

end Slot

/-- What may come next in an open container with a place for a value. -/
def Hole.slot : Hole → Slot
  | item _ => .item
  | field _ _ => .value

/-- What may come next in each of the open containers. -/
def Place.slots : Place → List Slot
  | awaiting holes => holes.map Hole.slot
  | inObject _ holes => .key :: holes.map Hole.slot
  | complete _ => []

section Slots

variable {events : List Event} {p p' : Place} {e : Event}

/-- Where a value is missing it is awaited. -/
lemma awaitValue_map_slot (holes : List Hole) : Slot.AwaitValue (holes.map Hole.slot) := by
  match holes with
  | [] => simp [Slot.AwaitValue]
  | .item _ :: holes => simp [Slot.AwaitValue, Hole.slot]
  | .field _ _ :: holes => simp [Slot.AwaitValue, Hole.slot]

/-- Behind a value the innermost container takes what comes next. -/
lemma Place.slots_behind (d : Document) (holes : List Hole) :
    (Place.behind d holes).slots = Slot.behind (holes.map Hole.slot) := by
  match holes with
  | [] => rfl
  | .item _ :: holes => rfl
  | .field _ _ :: holes => rfl

/-- The slots of a place take the event that the place takes. -/
lemma Place.Takes.slots (h : p.Takes e p') : Slot.Takes p.slots e p'.slots := by
  cases h with
  | scalar s holes =>
    rw [Place.slots_behind]
    exact .scalar _ (awaitValue_map_slot holes)
  | arrayStart holes => exact .arrayStart (awaitValue_map_slot holes)
  | objectStart holes => exact .objectStart (awaitValue_map_slot holes)
  | key before name holes => exact .key name
  | arrayEnd before holes =>
    rw [Place.slots_behind]
    exact .arrayEnd (awaitValue_map_slot holes)
  | objectEnd before holes =>
    rw [Place.slots_behind]
    exact .objectEnd (awaitValue_map_slot holes)

/-- A value opens and closes nothing. -/
lemma Slot.length_behind (slots : List Slot) : (Slot.behind slots).length = slots.length := by
  have hkinds := congrArg List.length (Slot.map_kind_behind slots)
  simpa using hkinds

/-- The number of open containers changes where one begins or ends. -/
lemma Slot.Takes.length_eq {slots slots' : List Slot} (h : Slot.Takes slots e slots') :
    slots'.length + [e].countP Event.closes = slots.length + [e].countP Event.opens := by
  cases h with
  | scalar value h => exact Slot.length_behind slots
  | arrayStart h => rfl
  | objectStart h => rfl
  | key name => rfl
  | arrayEnd h => simp [Slot.length_behind, Event.closes, Event.opens]
  | objectEnd h => simp [Slot.length_behind, Event.closes, Event.opens]

/-- As many containers are open as began and did not end. -/
lemma Place.Reached.length_slots (h : Place.Reached events p) :
    p.slots.length + events.countP Event.closes = events.countP Event.opens := by
  induction h with
  | start => rfl
  | step _ he ih =>
    have hstep := he.slots.length_eq
    rw [List.countP_append, List.countP_append]
    omega

end Slots

end EntityDump
