import EntityDump.Proofs.Shape.Normal
/-!
# The nodes of shapes

A shape is a tree: the fields of an object and the items of an array stand one level deeper, the members of a union
at its own level (`NodeAt`). Whatever was observed under some options, and however its shapes were merged
(`Observed`), every node of the result is reduced (`Reduced`) and none stands deeper than one level below the deepest
containers that are looked into: `Observed.reduced_of_nodeAt`.
-/

namespace EntityDump.Shape

open Json (Event)

/-- A shape that was taken of some events, or merged from such shapes. All are taken under the same options, and the
merges keep as many examples as these say. -/
inductive Observed (options : ShapeOptions) : Shape → Prop
  | taken {events : List Event} {s : Shape} :
      (({ options := options } : ShapeBuilder).pushAll events).root = some s → Observed options s
  | merge {a b : Shape} : Observed options a → Observed options b →
      Observed options (a.merge options.maxSamples b)

/-- A node of a shape at a depth. -/
inductive NodeAt (s : Shape) : Nat → Shape → Prop
  | root : NodeAt s 0 s
  | field {depth : Nat} {fields : List Field} {cut : Bool} {f : Field} : NodeAt s depth (.object fields cut) →
      f ∈ fields → NodeAt s (depth + 1) f.2.2
  | items {depth minLen maxLen : Nat} {node : Shape} {cut : Bool} :
      NodeAt s depth (.array minLen maxLen (some node) cut) → NodeAt s (depth + 1) node
  | member {depth : Nat} {members : List Shape} {m : Shape} : NodeAt s depth (.union members) →
      m ∈ members → NodeAt s depth m

/-- What every node keeps to, its own children apart: a truncated container shows nothing of what is in it, lengths
are a range, examples are different and not too many, and a union has two members or more, none of them a union
and each of a kind that comes after those before it. -/
def Reduced (maxSamples : Nat) : Shape → Prop
  | .object fields cut => cut = true → fields = []
  | .array minLen maxLen items cut => minLen ≤ maxLen ∧ (cut = true → items = none)
  | .string _ examples => examples.Nodup ∧ examples.length ≤ maxSamples
  | .union members => 2 ≤ members.length ∧ (members.Pairwise fun a b => a.kind.rank < b.kind.rank) ∧
      ∀ m ∈ members, m.kind ≠ .union
  | _ => True

variable {options : ShapeOptions} {bound : Float → Prop} {s node : Shape} {depth : Nat}

/-- Normal shapes are reduced. -/
lemma Normal.reduced (h : Normal options bound depth s) : s.Reduced options.maxSamples := by
  cases h with
  | object _ hcut _ _ => exact hcut
  | array _ hcut hlen _ => exact ⟨hlen, hcut⟩
  | string _ hexamples => exact ⟨hexamples.nodup, hexamples.length_le⟩
  | union hmembers hlength _ => exact ⟨hlength, hmembers.ordered, hmembers.ne_union⟩
  | number | boolean | null => trivial

/-- The nodes of a normal shape are normal where they stand, and only containers that are looked into have nodes
below them. -/
lemma Normal.of_nodeAt (h : Normal options bound 0 s) (hnode : s.NodeAt depth node) :
    Normal options bound depth node ∧ depth ≤ options.maxDepth + 1 := by
  induction hnode with
  | root => exact ⟨h, Nat.zero_le _⟩
  | @field depth fields cut f _ hf ih =>
    cases ih.1 with
    | object hcut hempty _ hfields =>
      refine ⟨hfields f hf, Nat.succ_le_succ (Nat.le_of_not_lt fun hdeep => ?_)⟩
      rw [hempty (hcut.trans (decide_eq_true hdeep))] at hf
      exact List.not_mem_nil hf
  | items _ ih =>
    cases ih.1 with
    | array hcut hempty _ hitems =>
      refine ⟨hitems _ rfl, Nat.succ_le_succ (Nat.le_of_not_lt fun hdeep => ?_)⟩
      have hnone := hempty (hcut.trans (decide_eq_true hdeep))
      cases hnone
  | member _ hm ih =>
    cases ih.1 with
    | union _ _ hmembers => exact ⟨hmembers _ hm, ih.2⟩

/-- The shape of any events is normal, and merges keep it so. -/
lemma Observed.normal (h : Observed options s) : Normal options (fun _ => True) 0 s := by
  induction h with
  | taken hs => exact normal_of_pushAll (fun _ _ => trivial) hs
  | merge _ _ ha hb => exact ha.merge hb

/-- Every node of a shape that was observed, by a builder or by merging such shapes, is reduced, and none stands
deeper than one level below the limit. -/
theorem Observed.reduced_of_nodeAt (h : Observed options s) (hnode : s.NodeAt depth node) :
    node.Reduced options.maxSamples ∧ depth ≤ options.maxDepth + 1 := by
  obtain ⟨hnormal, hdepth⟩ := h.normal.of_nodeAt hnode
  exact ⟨hnormal.reduced, hdepth⟩

/-- An object whose field is too deep to be looked into, merged with an array of strings: the union of both. -/
theorem reduced_of_nodeAt_of_mixed :
    let options : ShapeOptions := { maxDepth := 0, maxSamples := 1 }
    let a := Shape.object [("x", false, .array 1 1 none true)] false
    let b := Shape.array 2 2 (some (.string [] ["p"])) false
    Observed options (.union [a, b]) ∧ NodeAt (.union [a, b]) 1 (.array 1 1 none true) ∧
      (Shape.array 1 1 none true).Reduced 1 ∧ 1 ≤ 0 + 1 ∧ (Shape.union [a, b]).Reduced 1 := by
  intro options a b
  have ha : Observed options a := by
    have hroot : (({ options := options } : ShapeBuilder).pushAll [.objectStart, .key "x", .arrayStart, .scalar .null,
      .arrayEnd, .objectEnd]).root = some a := rfl
    exact .taken hroot
  have hb : Observed options b := by
    have hroot : (({ options := options } : ShapeBuilder).pushAll [.arrayStart, .scalar (.string "p"),
      .scalar (.string "q"), .arrayEnd]).root = some b := rfl
    exact .taken hroot
  have hmerge : a.merge 1 b = .union [a, b] := by
    change Shape.union (([a] ++ [b]).mergeSort _) = _
    rw [List.mergeSort_of_pairwise (by simp [a, b, kind, ShapeKind.rank])]
    rfl
  have hunion : Observed options (.union [a, b]) := hmerge ▸ ha.merge hb
  have hnode : NodeAt (.union [a, b]) 1 (.array 1 1 none true) :=
    .field (.member .root List.mem_cons_self) List.mem_cons_self
  obtain ⟨hreduced, hdepth⟩ := Observed.reduced_of_nodeAt hunion hnode
  exact ⟨hunion, hnode, hreduced, hdepth, (Observed.reduced_of_nodeAt hunion .root).1⟩

end EntityDump.Shape
