import EntityDump.Proofs.Json.Ordered
import EntityDump.Proofs.Path.Grammar
import EntityDump.Proofs.Scan
import EntityDump.Query.Join
/-!
# Fields of items

The text of a field says what it shows: a path, with `.length` behind it if the length of what stands there is meant
(`Projection.Reads`), and for pairs the side of the path before it (`SideProjection.Reads`). The item of a pair has
just these values under the texts of its fields (`IsItem`), and is known by that (`IsItem.unique`). The items of a join
are made so (`isItem_joinItem`).
-/

namespace EntityDump

open Text

/-! ### What a field shows -/

/-- The length of the first of some values: the number of an array's items or of a string's characters, else null. -/
def lengthOfFirst : List Json → Json
  | .array items :: _ => Json.ofNat items.length
  | .string s :: _ => Json.ofNat s.length
  | _ => .null

/-- What a field without blanks around it shows of an element. -/
inductive Projection.Reads (element : Json) : List Char → Json → Prop
  | length {base : List Char} {path : Path} : Path.parse (String.ofList base) = .ok path →
      Reads element (base ++ ".length".toList) (lengthOfFirst (path.select element))
  /-- With wildcards all values are shown, and else the first one or null. -/
  | values {field : List Char} {path : Path} : ¬ ".length".toList <:+ field →
      Path.parse (String.ofList field) = .ok path →
      Reads element field
        (if .wildcard ∈ path.segments then .array (path.select element)
        else (path.select element).head?.getD .null)

/-- What a field without blanks around it shows of a pair: the name of a side is no part of the path, and without one
the element on the left is read. -/
inductive SideProjection.Reads (left right : Json) : List Char → Json → Prop
  | left {field : List Char} {value : Json} : Projection.Reads left (trim field) value →
      Reads left right ('a' :: '.' :: field) value
  | right {field : List Char} {value : Json} : Projection.Reads right (trim field) value →
      Reads left right ('b' :: '.' :: field) value
  | unnamed {field : List Char} {value : Json} : ¬ ['a', '.'] <+: field → ¬ ['b', '.'] <+: field →
      Projection.Reads left (trim field) value → Reads left right field value

/-- The item of a pair for a list of fields: both elements in full if there are none, and else an object that has under
the text of each field what the field shows, with the texts in order. -/
inductive IsItem (left right : Json) : List String → Json → Prop
  | full : IsItem left right [] (.object [("left", left), ("right", right)])
  | fields {select : List String} {fields : List (String × Json)} : select ≠ [] →
      (fields.map (·.1)).Pairwise (· < ·) →
      (∀ name value, (name, value) ∈ fields ↔ ∃ field ∈ select,
        String.ofList (trim field.toList) = name ∧ SideProjection.Reads left right (trim field.toList) value) →
      IsItem left right select (.object fields)

variable {field : String} {text : List Char} {path : Path} {element left right value value' item item' : Json}
  {select : List String} {projections : List SideProjection}

/-! ### A field shows one value -/

namespace Projection

variable {p : Projection}

/-- A field has one value at most in an element. -/
lemma Reads.unique (h : Reads element text value) (h' : Reads element text value') : value = value' := by
  generalize htext : text = text' at h'
  cases h with
  | @length base path hpath =>
    cases h' with
    | @length base' path' hpath' =>
      obtain rfl := List.append_cancel_right htext
      rw [Except.ok.inj (hpath.symm.trans hpath')]
    | values hlength _ => exact absurd ⟨base, htext⟩ hlength
  | values hlength hpath =>
    subst htext
    cases h' with
    | length _ => exact absurd (List.suffix_append _ _) hlength
    | values _ hpath' => rw [Except.ok.inj (hpath.symm.trans hpath')]

/-- A field that asks for a length shows that of the first value that its path selects. -/
lemma resolve_length (name : String) (path : Path) (element : Json) :
    resolve ⟨name, path, true⟩ element = lengthOfFirst (path.select element) := by
  rw [resolve, if_pos rfl, Path.first?]
  cases path.select element with
  | nil => rfl
  | cons value rest => cases value <;> rfl

/-- Any other field shows all values that its path selects if it has a wildcard, and otherwise the first or null. -/
lemma resolve_values (name : String) (path : Path) (element : Json) :
    resolve ⟨name, path, false⟩ element =
      if .wildcard ∈ path.segments then .array (path.select element)
      else (path.select element).head?.getD .null := by
  simp only [resolve, Path.hasWildcard, Path.first?, List.contains_iff_mem, Bool.false_eq_true, if_false]

/-- A field that can be read shows the value that it is resolved to. -/
theorem reads_resolve (h : parse field = .ok p) (element : Json) :
    Reads element (trim field.toList) (p.resolve element) := by
  unfold parse at h
  cases hlength : dropEnd? lengthSuffix (trim field.toList) with
  | some base =>
    simp only [hlength] at h
    obtain ⟨path, hpath, h⟩ := Engine.exists_of_bind_eq_ok h
    obtain rfl := Except.ok.inj h
    rw [resolve_length, Path.dropEnd?_eq_some_iff.1 hlength]
    exact .length hpath
  | none =>
    have hsuffix : ¬ ".length".toList <:+ trim field.toList := by
      rintro ⟨base, hbase⟩
      have hsome : dropEnd? lengthSuffix (trim field.toList) = some base := Path.dropEnd?_eq_some_iff.2 hbase.symm
      rw [hlength] at hsome
      cases hsome
    simp only [hlength] at h
    obtain ⟨path, hpath, h⟩ := Engine.exists_of_bind_eq_ok h
    obtain rfl := Except.ok.inj h
    rw [resolve_values]
    exact .values hsuffix hpath

/-- A field that is no length is its path. -/
lemma parse_of_path (htrim : trim field.toList = field.toList) (hlength : ¬ ".length".toList <:+ field.toList)
    (hpath : Path.parse field = .ok path) : parse field = .ok ⟨field, path, false⟩ := by
  have hnone : dropEnd? lengthSuffix field.toList = none := by
    refine Option.eq_none_iff_forall_ne_some.2 fun base hbase => hlength ⟨base, ?_⟩
    exact (Path.dropEnd?_eq_some_iff.1 hbase).symm
  simp only [parse, htrim, hnone, String.ofList_toList, hpath]
  rfl

end Projection

namespace SideProjection

variable {p : SideProjection}

/-- A field of a pair has one value at most. -/
lemma Reads.unique (h : Reads left right text value) (h' : Reads left right text value') : value = value' := by
  cases h with
  | left h =>
    cases h' with
    | left h' => exact h.unique h'
    | unnamed hleft _ _ => exact absurd (List.prefix_append ['a', '.'] _) hleft
  | right h =>
    cases h' with
    | right h' => exact h.unique h'
    | unnamed _ hright _ => exact absurd (List.prefix_append ['b', '.'] _) hright
  | unnamed hleft hright h =>
    cases h' with
    | left _ => exact absurd (List.prefix_append ['a', '.'] _) hleft
    | right _ => exact absurd (List.prefix_append ['b', '.'] _) hright
    | unnamed _ _ h' => exact h.unique h'

/-- A text names the left side, the right one or none. -/
lemma splitSide_cases (text : List Char) :
    (∃ path, text = 'a' :: '.' :: path ∧ splitSide text = (.left, path)) ∨
      (∃ path, text = 'b' :: '.' :: path ∧ splitSide text = (.right, path)) ∨
      ¬ ['a', '.'] <+: text ∧ ¬ ['b', '.'] <+: text ∧ splitSide text = (.left, text) := by
  unfold splitSide
  split
  · next path => exact .inl ⟨path, rfl, rfl⟩
  · next path => exact .inr (.inl ⟨path, rfl, rfl⟩)
  · next hleft hright =>
    refine .inr (.inr ⟨?_, ?_, rfl⟩)
    · rintro ⟨path, rfl⟩
      exact hleft path rfl
    · rintro ⟨path, rfl⟩
      exact hright path rfl

/-- A field that can be read has its text without blanks as its name and shows the value that it is resolved to. -/
theorem reads_resolve (h : parse field = .ok p) (left right : Json) :
    p.name = String.ofList (trim field.toList) ∧ Reads left right (trim field.toList) (p.resolve left right) := by
  unfold parse at h
  generalize trim field.toList = text at h ⊢
  have hread : ∀ {side : Side} {path : List Char}, splitSide text = (side, path) →
      p.name = String.ofList text ∧ p.side = side ∧
        ∀ element, Projection.Reads element (trim path) (p.projection.resolve element) := by
    intro side path hsplit
    simp only [hsplit] at h
    obtain ⟨projection, hprojection, h⟩ := Engine.exists_of_bind_eq_ok h
    obtain rfl := Except.ok.inj h
    refine ⟨rfl, rfl, fun element => ?_⟩
    have hreads := Projection.reads_resolve hprojection element
    rwa [String.toList_ofList] at hreads
  rcases splitSide_cases text with ⟨path, rfl, hsplit⟩ | ⟨path, rfl, hsplit⟩ | ⟨hleft, hright, hsplit⟩
  · obtain ⟨hname, hside, hreads⟩ := hread hsplit
    rw [resolve, hside]
    exact ⟨hname, .left (hreads left)⟩
  · obtain ⟨hname, hside, hreads⟩ := hread hsplit
    rw [resolve, hside]
    exact ⟨hname, .right (hreads right)⟩
  · obtain ⟨hname, hside, hreads⟩ := hread hsplit
    rw [resolve, hside]
    exact ⟨hname, .unnamed hleft hright (hreads left)⟩

/-- A field is its side and the rest of it, if blanks are left out. -/
lemma parse_of_splitSide {side : Side} {rest : String} {projection : Projection} {name : String}
    (htrim : trim field.toList = name.toList) (hsplit : splitSide name.toList = (side, rest.toList))
    (hrest : Projection.parse rest = .ok projection) : parse field = .ok ⟨name, side, projection⟩ := by
  simp only [parse, htrim, hsplit, String.ofList_toList, hrest]
  rfl

/-- What the fields of a list show, under their texts. -/
lemma mem_map_resolve_iff (h : select.mapM parse = .ok projections) (left right : Json) (name : String)
    (value : Json) :
    (name, value) ∈ projections.map (fun p => (p.name, p.resolve left right)) ↔ ∃ field ∈ select,
      String.ofList (trim field.toList) = name ∧ Reads left right (trim field.toList) value := by
  induction select generalizing projections with
  | nil =>
    obtain rfl := Except.ok.inj h
    simp
  | cons field select ih =>
    rw [List.mapM_cons] at h
    obtain ⟨p, hp, h⟩ := Engine.exists_of_bind_eq_ok h
    obtain ⟨rest, hrest, h⟩ := Engine.exists_of_bind_eq_ok h
    obtain rfl := Except.ok.inj h
    obtain ⟨hname, hreads⟩ := reads_resolve hp left right
    rw [List.map_cons, List.mem_cons, ih hrest, List.exists_mem_cons_iff, Prod.mk.injEq, hname, eq_comm]
    refine or_congr (and_congr_right fun _ => ⟨?_, fun hvalue => hvalue.unique hreads⟩) Iff.rfl
    rintro rfl
    exact hreads

end SideProjection

/-! ### Items -/

/-- A pair has one item at most for its fields. -/
theorem IsItem.unique (h : IsItem left right select item) (h' : IsItem left right select item') : item = item' := by
  cases h with
  | full =>
    cases h' with
    | full => rfl
    | fields hne => exact absurd rfl hne
  | fields hne hkeys hmem =>
    cases h' with
    | full => exact absurd rfl hne
    | fields _ hkeys' hmem' =>
      exact congrArg Json.object (Json.Fields.ext_of_pairwise hkeys hkeys' fun field =>
        (hmem field.1 field.2).trans (hmem' field.1 field.2).symm)

/-- A pair is made into its item. -/
theorem isItem_joinItem (h : select.mapM SideProjection.parse = .ok projections) (left right : Json) :
    IsItem left right select (joinItem projections left right) := by
  cases select with
  | nil =>
    obtain rfl := Except.ok.inj h
    exact .full
  | cons field select =>
    have hne : projections.isEmpty = false := by
      rw [List.mapM_cons] at h
      obtain ⟨_, -, h⟩ := Engine.exists_of_bind_eq_ok h
      obtain ⟨_, -, h⟩ := Engine.exists_of_bind_eq_ok h
      obtain rfl := Except.ok.inj h
      rfl
    rw [joinItem, hne, if_neg Bool.false_ne_true, Projection.collect]
    refine .fields (List.cons_ne_nil _ _) (Json.Fields.pairwise_ofList _) fun name value => ?_
    rw [← SideProjection.mem_map_resolve_iff h]
    refine Json.Fields.mem_ofList_iff fun v v' hv hv' => ?_
    rw [SideProjection.mem_map_resolve_iff h] at hv hv'
    obtain ⟨field, -, rfl, hreads⟩ := hv
    obtain ⟨field', -, hname, hreads'⟩ := hv'
    rw [String.ofList_injective hname] at hreads'
    exact hreads.unique hreads'

end EntityDump
