import EntityDump.Json.Event
import EntityDump.Shape.Basic
/-!
# Building shapes from events

A shape builder follows the events of documents and keeps the shape of every open container, never a value.
Containers deeper than a limit are truncated: of an array only the length is kept, of an object nothing. The
shapes of several documents merge.
-/

namespace EntityDump

open Json (Event)

/-- How shapes are taken. -/
structure ShapeOptions where
  /-- Containers nested deeper than this are truncated. -/
  maxDepth : Nat := 8
  /-- The most examples of strings at one place. -/
  maxSamples : Nat := 3
  /-- Note the patterns of strings instead of the strings. -/
  detectPatterns : Bool := true
  deriving DecidableEq, Repr

/-- An open container. -/
inductive ShapeFrame where
  | object (fields : List Shape.Field) (pendingKey : Option String) (truncated : Bool)
  | array (length : Nat) (items : Option Shape) (truncated : Bool)

namespace ShapeFrame

/-- The container is truncated. -/
def truncated : ShapeFrame → Bool
  | object _ _ cut => cut
  | array _ _ cut => cut

/-- The shape of the container as it stands. -/
def shape : ShapeFrame → Shape
  | object fields _ cut => .object fields cut
  | array length items cut => .array length length items cut

end ShapeFrame

/-- The open containers, the innermost first, and the shape of the documents so far. -/
structure ShapeBuilder where
  options : ShapeOptions := {}
  frames : List ShapeFrame := []
  /-- The containers open inside a truncated one. -/
  skipping : Nat := 0
  root : Option Shape := none

namespace ShapeBuilder

/-- The shape of a scalar. -/
def scalarShape (options : ShapeOptions) : Json → Shape
  | .bool _ => .boolean
  | .number n => .number n.toFloat n.toFloat n.isInt
  | .string s =>
    match if options.detectPatterns then Pattern.detect? s else none with
    | some pattern => .string [pattern] []
    | none => .string [] (if options.maxSamples > 0 then [s] else [])
  | _ => .null

/-- Merges a shape into one that may not be there yet. -/
def mergeInto (options : ShapeOptions) (mine : Option Shape) (node : Shape) : Option Shape :=
  some (match mine with
    | some mine => mine.merge options.maxSamples node
    | none => node)

/-- Puts the shape of a finished value where it belongs. -/
def complete (b : ShapeBuilder) (node : Shape) : ShapeBuilder :=
  match b.frames with
  | [] => { b with root := mergeInto b.options b.root node }
  | .object fields key cut :: rest =>
    let fields := Shape.upsert (key.getD "")
      (fun field => (field.1, field.2.merge b.options.maxSamples node)) (false, node) fields
    { b with frames := .object fields none cut :: rest }
  | .array length items cut :: rest =>
    { b with frames := .array (length + 1) (mergeInto b.options items node) cut :: rest }

/-- Notes a child of a truncated container. -/
def countTruncated (b : ShapeBuilder) : ShapeBuilder :=
  match b.frames with
  | .array length items cut :: rest => { b with frames := .array (length + 1) items cut :: rest }
  | _ => b

/-- The innermost container is truncated. -/
def inTruncated (b : ShapeBuilder) : Bool :=
  b.frames.head?.any ShapeFrame.truncated

/-- Opens a container. -/
def openFrame (b : ShapeBuilder) (frame : Bool → ShapeFrame) : ShapeBuilder :=
  if b.inTruncated then { b.countTruncated with skipping := 1 }
  else { b with frames := frame (b.frames.length > b.options.maxDepth) :: b.frames }

/-- Closes the innermost container. -/
def closeFrame (b : ShapeBuilder) : ShapeBuilder :=
  match b.frames with
  | [] => b
  | frame :: rest => { b with frames := rest }.complete frame.shape

/-- Takes one event. -/
def push (b : ShapeBuilder) (event : Event) : ShapeBuilder :=
  if b.skipping > 0 then
    if event.opens then { b with skipping := b.skipping + 1 }
    else if event.closes then { b with skipping := b.skipping - 1 }
    else b
  else
    match event with
    | .key name =>
      match b.frames with
      | .object fields _ cut :: rest => { b with frames := .object fields (some name) cut :: rest }
      | _ => b
    | .objectStart => b.openFrame (.object [] none)
    | .arrayStart => b.openFrame (.array 0 none)
    | .objectEnd => b.closeFrame
    | .arrayEnd => b.closeFrame
    | .scalar value =>
      if b.inTruncated then b.countTruncated else b.complete (scalarShape b.options value)

/-- Takes events in order. -/
def pushAll (b : ShapeBuilder) (events : List Event) : ShapeBuilder :=
  events.foldl push b

/-- At least one document is complete and none is begun. -/
def isComplete (b : ShapeBuilder) : Bool :=
  b.frames.isEmpty && b.root.isSome

end ShapeBuilder

end EntityDump
