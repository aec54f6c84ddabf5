import EntityDump.Path.Selection
import Mathlib.Tactic.Lemma
/-!
# Selecting depth first

A path selects stage by stage: a segment goes through all values selected so far before the next segment begins.
A walk takes the whole rest of the path below one child before it goes to the next child (`Path.walk`). Both come to
the same values in the same order and equally often, as every stage is a walk from each of its values
(`Path.selectFrom_eq_walk`). So paths can be put one behind the other, and without wildcards at most one value is
selected: `Path.select_depth_first`.
-/

namespace EntityDump

/-- A segment other than a wildcard picks at most one child. -/
lemma Segment.length_children_le_one {segment : Segment} (h : segment ≠ .wildcard) (value : Json) :
    (segment.children value).length ≤ 1 := by
  cases segment with
  | wildcard => exact absurd rfl h
  | key name => cases value <;> simp [children, Option.length_toList_le]
  | index n => cases value <;> simp [children, Option.length_toList_le]

namespace Path

/-- The values that segments lead to, depth first: a key leads into the field, an index into the item, and a
wildcard into each item or field in turn, with all that the further segments lead to below it. -/
def walk : List Segment → Json → List Json
  | [], value => [value]
  | .key name :: rest, .object fields =>
    match Json.Fields.find? name fields with
    | some child => walk rest child
    | none => []
  | .wildcard :: rest, .array items => items.flatMap fun item => walk rest item
  | .wildcard :: rest, .object fields => fields.flatMap fun field => walk rest field.2
  | .index n :: rest, .array items =>
    match items[n]? with
    | some child => walk rest child
    | none => []
  | _ :: _, _ => []

variable {segments further : List Segment} {selected : List Json}

/-- One step of a walk goes to the children that the segment picks. -/
lemma walk_cons (segment : Segment) (segments : List Segment) (value : Json) :
    walk (segment :: segments) value = (segment.children value).flatMap (walk segments) := by
  cases segment with
  | key name =>
    cases value with
    | object fields => cases h : Json.Fields.find? name fields <;> simp [walk, Segment.children, h]
    | _ => rfl
  | wildcard =>
    cases value with
    | object fields => simp [walk, Segment.children, List.flatMap_map]
    | _ => rfl
  | index n =>
    cases value with
    | array items => cases h : items[n]? <;> simp [walk, Segment.children, h]
    | _ => rfl

/-- A stage is a walk from each of the values selected so far. -/
theorem selectFrom_eq_walk (segments : List Segment) (selected : List Json) :
    selectFrom segments selected = selected.flatMap (walk segments) := by
  induction segments generalizing selected with
  | nil => simp [selectFrom, walk]
  | cons segment segments ih =>
    have hstep : walk (segment :: segments) = fun value => (segment.children value).flatMap (walk segments) := by
      funext value
      exact walk_cons segment segments value
    rw [selectFrom_cons, ih, hstep, List.flatMap_assoc]

/-- What a path selects is found by walking to it depth first. -/
lemma select_eq_walk (p : Path) (root : Json) : p.select root = walk p.segments root := by
  rw [select, selectFrom_eq_walk, List.flatMap_singleton]

/-- Further segments lead on from each value that the first ones lead to. -/
lemma walk_append (segments further : List Segment) (value : Json) :
    walk (segments ++ further) value = (walk segments value).flatMap (walk further) := by
  induction segments generalizing value with
  | nil => simp [walk]
  | cons segment segments ih =>
    rw [List.cons_append, walk_cons, walk_cons, List.flatMap_assoc]
    congr 1
    funext child
    exact ih child

/-- Without wildcards at most one value is selected from at most one. -/
lemma length_selectFrom_le_one (h : .wildcard ∉ segments) (hselected : selected.length ≤ 1) :
    (selectFrom segments selected).length ≤ 1 := by
  induction segments generalizing selected with
  | nil => exact hselected
  | cons segment segments ih =>
    obtain ⟨hsegment, hsegments⟩ := not_or.1 (mt List.mem_cons.2 h)
    have hchildren : (selected.flatMap segment.children).length ≤ 1 := by
      cases selected with
      | nil => exact Nat.zero_le 1
      | cons value rest =>
        obtain rfl : rest = [] := List.length_eq_zero_iff.1 (Nat.le_zero.1 (Nat.le_of_succ_le_succ hselected))
        rw [List.flatMap_singleton]
        exact Segment.length_children_le_one (Ne.symm hsegment) value
    rw [selectFrom_cons]
    exact ih hsegments hchildren

/-- Without wildcards a path selects one value at most. -/
lemma length_select_le_one {path : Path} (h : path.hasWildcard = false) (element : Json) :
    (path.select element).length ≤ 1 := by
  refine length_selectFrom_le_one ?_ Nat.le.refl
  intro hmem
  rw [hasWildcard, List.contains_iff_mem.2 hmem] at h
  cases h

/-- A path selects what a walk along its segments leads to, in this order and with repetitions. A path that goes on
as another one selects what this one selects from each value of the first. Without wildcards at most one value is
selected, and the first value of a path is the first that it selects. -/
theorem select_depth_first (p : Path) (root : Json) :
    p.select root = walk p.segments root ∧
      (∀ q r : Path, r.segments = p.segments ++ q.segments →
        r.select root = (p.select root).flatMap q.select) ∧
      (p.hasWildcard = false → (p.select root).length ≤ 1) ∧
      p.first? root = (p.select root).head? := by
  refine ⟨select_eq_walk p root, ?_, fun h => length_select_le_one h root, rfl⟩
  intro q r hsegments
  have hq : q.select = walk q.segments := by
    funext value
    exact select_eq_walk q value
  rw [select_eq_walk, select_eq_walk, hq, hsegments, walk_append]

/-- Of three items two have the field that is asked for, one of them an object with two fields. -/
theorem select_depth_first_of_items :
    let root : Json := .object [("items", .array [.object [("a", .bool true)], .null,
      .object [("a", .object [("x", .null), ("y", .bool true)])]])]
    let p : Path := ⟨"items", [.key "items"]⟩
    let q : Path := ⟨"[*].a", [.wildcard, .key "a"]⟩
    let r : Path := ⟨"items[*].a", [.key "items", .wildcard, .key "a"]⟩
    r.segments = p.segments ++ q.segments ∧ p.hasWildcard = false ∧
      r.select root = (p.select root).flatMap q.select ∧
      r.select root = [.bool true, .object [("x", .null), ("y", .bool true)]] ∧
      (p.select root).length ≤ 1 := by
  intro root p q r
  have hsegments : r.segments = p.segments ++ q.segments := rfl
  have hwildcard : p.hasWildcard = false := rfl
  obtain ⟨-, happend, hone, -⟩ := select_depth_first p root
  exact ⟨hsegments, hwildcard, happend q r hsegments, rfl, hone hwildcard⟩

end Path

end EntityDump
