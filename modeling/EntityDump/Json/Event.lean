import EntityDump.Json.Basic
/-!
# Events

A JSON document as a sequence of events: where containers open and close, keys and scalars.
-/

namespace EntityDump.Json

/-- One step through a JSON document. -/
inductive Event where
  | objectStart
  | objectEnd
  | arrayStart
  | arrayEnd
  | key (name : String)
  | scalar (value : Json)

namespace Event

/-- The event opens a container. -/
def opens : Event → Bool
  | objectStart => true
  | arrayStart => true
  | _ => false

/-- The event closes a container. -/
def closes : Event → Bool
  | objectEnd => true
  | arrayEnd => true
  | _ => false

end Event

end EntityDump.Json
