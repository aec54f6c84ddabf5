import EntityDump.Json.Event
/-!
# Assembling values from events

An assembler holds the containers that are open and puts every finished value into the innermost one; a
value that is finished while none is open is given back. In an object a later value takes the place of an
earlier one under the same key.
-/

namespace EntityDump.Json

/-- A container that is still open. -/
inductive Frame where
  /-- The fields so far and the key of the next value. -/
  | object (fields : List (String × Json)) (key : Option String)
  /-- The items so far, the last one first. -/
  | array (reversed : List Json)

/-- The open containers, the innermost first. -/
structure Assembler where
  frames : List Frame := []

namespace Assembler

/-- No container is open. -/
def isIdle (a : Assembler) : Bool :=
  a.frames.isEmpty

/-- The value of a container as it stands. -/
def close : Frame → Json
  | .object fields _ => .object fields
  | .array reversed => .array reversed.reverse

/-- Puts a finished value where it belongs; it is given back when no container is open. An object without
a pending key takes the value under the empty key. -/
def complete (a : Assembler) (value : Json) : Assembler × Option Json :=
  match a.frames with
  | [] => (a, some value)
  | .object fields key :: rest =>
    (⟨.object (Fields.insert (key.getD "") value fields) none :: rest⟩, none)
  | .array reversed :: rest => (⟨.array (value :: reversed) :: rest⟩, none)

/-- Closes the innermost container, whichever kind it is; nothing happens when none is open. -/
def pop (a : Assembler) : Assembler × Option Json :=
  match a.frames with
  | [] => (a, none)
  | frame :: rest => complete ⟨rest⟩ (close frame)

/-- Takes one event. A key outside an object and an end without a start change nothing. -/
def push (a : Assembler) : Event → Assembler × Option Json
  | .objectStart => (⟨.object [] none :: a.frames⟩, none)
  | .arrayStart => (⟨.array [] :: a.frames⟩, none)
  | .key name =>
    match a.frames with
    | .object fields _ :: rest => (⟨.object fields (some name) :: rest⟩, none)
    | _ => (a, none)
  | .scalar value => a.complete value
  | .objectEnd => a.pop
  | .arrayEnd => a.pop

/-- Takes events in order and collects the values that they complete. -/
def pushAll (a : Assembler) (events : List Event) : Assembler × List Json :=
  events.foldl (fun (state : Assembler × List Json) event =>
    let (a, value) := state.1.push event
    (a, state.2 ++ value.toList)) (a, [])

end Assembler

end EntityDump.Json
