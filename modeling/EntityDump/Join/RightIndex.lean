import EntityDump.Query.Group
/-!
# The index of a join

The elements on the right of a join, under each of the keys that they have there. Null is no key. The elements
under a key are in order of the document, and an element is not put under a key where it stands last already, so
that it stands there once, however often it has the key.
-/

namespace EntityDump

/-- The key under which a value joins; null never joins. -/
def joinKey? : Json → Option String
  | .null => none
  | value => some (groupKey value)

/-- The keys that an element has at a path, in order and with repetitions. -/
def joinKeys (path : Path) (element : Json) : List String :=
  (path.select element).filterMap joinKey?

/-- An element with its place among the elements, which tells it from equal ones. -/
structure RightEntry where
  place : Nat
  element : Json

/-- Elements under their keys. -/
structure RightIndex where
  /-- The elements under each key. -/
  buckets : Std.TreeMap String (Array RightEntry) := {}
  /-- All elements, also those without a key. -/
  scanned : Nat := 0

namespace RightIndex

/-- Puts an element behind others, unless it is the last of them. -/
def push (entry : RightEntry) (bucket : Array RightEntry) : Array RightEntry :=
  if bucket.back?.any (·.place == entry.place) then bucket else bucket.push entry

/-- Puts an element under a key. -/
def put (entry : RightEntry) (buckets : Std.TreeMap String (Array RightEntry)) (key : String) :
    Std.TreeMap String (Array RightEntry) :=
  buckets.alter key fun bucket => some (push entry (bucket.getD #[]))

/-- Takes an element, under each of its keys. -/
def add (path : Path) (index : RightIndex) (element : Json) : RightIndex :=
  ⟨(joinKeys path element).foldl (put ⟨index.scanned, element⟩) index.buckets, index.scanned + 1⟩

/-- The index of some elements. -/
def ofElements (path : Path) (elements : List Json) : RightIndex :=
  elements.foldl (add path) {}

/-- The elements under a key, if there are any. -/
def get? (index : RightIndex) (key : String) : Option (List Json) :=
  index.buckets[key]?.map fun bucket => bucket.toList.map (·.element)

/-- The number of keys. -/
def size (index : RightIndex) : Nat :=
  index.buckets.size

/-- There is no key. -/
def isEmpty (index : RightIndex) : Bool :=
  index.buckets.isEmpty

/-- The elements that a left element joins with: for each of its keys in order, all elements under it. -/
def partners (index : RightIndex) (leftPath : Path) (left : Json) : List Json :=
  (joinKeys leftPath left).flatMap fun key => (index.get? key).getD []

end RightIndex

/-- The index of a source by the values at a path. -/
def Engine.rightIndex (engine : Engine) (source : Source) (path : Path) : Except Error RightIndex :=
  engine.scan source (RightIndex.add path) {}

end EntityDump
