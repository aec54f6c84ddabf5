import EntityDump.Path.Basic
/-!
# Selecting by a path

A path selects values from a value, segment by segment: each segment replaces every value selected so far
by the children it picks, and where none is left the rest of the path is not looked at. `selectFrom_eq_flatMap`
says that what is selected from several values is what is selected from each of them.
-/

namespace EntityDump

namespace Segment

/-- The children of a value that a segment picks, in order. -/
def children : Segment → Json → List Json
  | .key name, .object fields => (Json.Fields.find? name fields).toList
  | .wildcard, .array items => items
  | .wildcard, .object fields => fields.map (·.2)
  | .index n, .array items => items[n]?.toList
  | _, _ => []

end Segment

namespace Path

/-- Replaces the selected values by their children, for each segment in turn, until nothing is selected. -/
def selectFrom : List Segment → List Json → List Json
  | [], selected => selected
  | segment :: segments, selected =>
    match selected.flatMap segment.children with
    | [] => []
    | next => selectFrom segments next

/-- The values that the path selects, in order. -/
def select (p : Path) (root : Json) : List Json :=
  selectFrom p.segments [root]

/-- The first value that the path selects. -/
def first? (p : Path) (root : Json) : Option Json :=
  (p.select root).head?

theorem selectFrom_nil (segments : List Segment) : selectFrom segments [] = [] := by
  cases segments <;> rfl

/-- To stop where nothing is selected makes no difference. -/
theorem selectFrom_cons (segment : Segment) (segments : List Segment) (selected : List Json) :
    selectFrom (segment :: segments) selected = selectFrom segments (selected.flatMap segment.children) := by
  rw [selectFrom]
  split
  · next hnone => rw [hnone, selectFrom_nil]
  · rfl

/-- Selecting from a list of values is selecting from each of them. -/
theorem selectFrom_eq_flatMap (segments : List Segment) (selected : List Json) :
    selectFrom segments selected = selected.flatMap fun v => selectFrom segments [v] := by
  induction segments generalizing selected with
  | nil => simp [selectFrom]
  | cons segment segments ih =>
    rw [selectFrom_cons, ih]
    simp only [selectFrom_cons, List.flatMap_cons, List.flatMap_nil, List.append_nil, List.flatMap_assoc]
    congr 1
    funext v
    exact (ih _).symm

end Path

end EntityDump
