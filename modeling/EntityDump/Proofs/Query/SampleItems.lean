import EntityDump.Proofs.Path.Grammar
import EntityDump.Proofs.Query.Sampling
/-!
# The items of a sample

Whatever is drawn, the items of a sample are a selection of the matching elements, as many as are asked for if
there are enough of them (`Engine.sample_isSample`). What the reservoir holds is in no order, but it is part of
the matches and none of them twice; so in order of the document it is the list of the matches with some of them
left out (`exists_selection_eq_sorted`).
-/

namespace EntityDump

open Reservoir (kept)

/-! ### Matches -/

/-- The element has the entity type and passes the filter, and the path selects something in it. -/
structure MatchesSample (path : Option Path) (entityType : Option String) (filter : FilterSet)
    (element : Json) : Prop where
  entityType : ∀ wanted ∈ entityType, matchesEntityType element wanted = true
  accepted : filter.accepts element = true
  selected : ∀ p ∈ path, p.select element ≠ []

instance (path : Option Path) (entityType : Option String) (filter : FilterSet) :
    DecidablePred (MatchesSample path entityType filter) := fun element =>
  decidable_of_iff ((∀ wanted ∈ entityType, matchesEntityType element wanted = true) ∧
      filter.accepts element = true ∧ ∀ p ∈ path, p.select element ≠ [])
    ⟨fun h => ⟨h.1, h.2.1, h.2.2⟩, fun h => ⟨h.entityType, h.accepted, h.selected⟩⟩

/-- The value of an element at the path of a sample: all of the element without a path, and all values that the
path selects if it has a wildcard. -/
def valueAt (path : Option Path) (element : Json) : Json :=
  match path with
  | none => element
  | some p => if p.hasWildcard then .array (p.select element) else (p.select element).headD .null

/-- What a sample promises: as many items as asked for or as there are matches, in order of the document, each of
them a matching element's value as it is shown, and all of the matches if there are no more of them. -/
structure IsSample (options : SampleOptions) (path : Option Path) (filter : FilterSet) (elements : List Json)
    (result : SampleResult) : Prop where
  matched : result.matchedCount = elements.countP fun element =>
    MatchesSample path options.entityType filter element
  length : result.items.length = min options.count result.matchedCount
  ascending : (result.items.map (·.index)).Pairwise (· < ·)
  shown : ∀ item ∈ result.items, ∃ element, elements[item.index]? = some element ∧
    MatchesSample path options.entityType filter element ∧
      item.value = options.truncation.apply (valueAt path element)
  all : result.matchedCount ≤ options.count → ∀ (index : Nat) element, elements[index]? = some element →
    MatchesSample path options.entityType filter element →
      ⟨index, options.truncation.apply (valueAt path element)⟩ ∈ result.items

section Matches

variable (path : Option Path) (entityType : Option String) (filter : FilterSet) (elements : List Json)

/-- An element that matches is sampled with the value to show. -/
lemma sampleValue?_eq (element : Json) :
    sampleValue? path entityType filter element =
      if MatchesSample path entityType filter element then some (valueAt path element) else none := by
  have hiff : MatchesSample path entityType filter element ↔
      (entityType.all (matchesEntityType element) && filter.accepts element) = true ∧
        ∀ p ∈ path, p.select element ≠ [] := by
    rw [Bool.and_eq_true, Option.all_eq_true, and_assoc]
    exact ⟨fun h => ⟨h.entityType, h.accepted, h.selected⟩, fun h => ⟨h.1, h.2.1, h.2.2⟩⟩
  unfold sampleValue?
  split
  · next hpasses =>
    cases path with
    | none => rw [if_pos (hiff.2 ⟨hpasses, by simp⟩)]; rfl
    | some p =>
      cases hselect : p.select element with
      | nil =>
        have hnot : ¬ MatchesSample (some p) entityType filter element := fun h => h.selected p rfl hselect
        rw [if_neg hnot]
        simp [hselect]
      | cons value rest =>
        rw [if_pos (hiff.2 ⟨hpasses, by simp [hselect]⟩)]
        simp [valueAt, hselect]
  · next hfails =>
    rw [if_neg fun h => hfails (hiff.1 h).1]

/-- There are as many candidates as elements that match. -/
lemma length_sampleMatches :
    (sampleMatches (sampleValue? path entityType filter) elements).length =
      elements.countP fun element => MatchesSample path entityType filter element := by
  have hisSome : ∀ element : Json × Nat,
      ((sampleValue? path entityType filter element.1).map
        fun value => (⟨element.2, value⟩ : SampledElement)).isSome =
        decide (MatchesSample path entityType filter element.1) := by
    intro element
    rw [Option.isSome_map, sampleValue?_eq]
    split <;> simp [*]
  rw [sampleMatches, List.length_filterMap_eq_countP]
  simp only [hisSome]
  conv_rhs => rw [← List.zipIdx_map_fst 0 elements, List.countP_map]
  rfl

/-- A candidate is an element that matches, with its index and the value to show. -/
lemma mem_sampleMatches_iff {item : SampledElement} :
    item ∈ sampleMatches (sampleValue? path entityType filter) elements ↔
      ∃ element, elements[item.index]? = some element ∧ MatchesSample path entityType filter element ∧
        item.value = valueAt path element := by
  rw [sampleMatches, List.mem_filterMap]
  constructor
  · rintro ⟨⟨element, index⟩, hmem, hitem⟩
    obtain ⟨value, hvalue, rfl⟩ := Option.map_eq_some_iff.1 hitem
    rw [sampleValue?_eq] at hvalue
    obtain ⟨hmatches, hvalue⟩ := Option.ite_none_right_eq_some.1 hvalue
    exact ⟨element, List.mem_zipIdx_iff_getElem?.1 hmem, hmatches, (Option.some.inj hvalue).symm⟩
  · rintro ⟨element, helement, hmatches, hvalue⟩
    refine ⟨(element, item.index), List.mem_zipIdx_iff_getElem?.2 helement, ?_⟩
    rw [sampleValue?_eq, if_pos hmatches, Option.map_some, ← hvalue]

end Matches

/-! ### Selections -/

/-- What the reservoir keeps of the matches is, in order of the document, a selection of them. -/
lemma exists_selection_eq_sorted {found : List SampledElement}
    (hfound : found.Pairwise fun a b => a.index < b.index) (truncation : Truncation) (count : Nat)
    (draws : Draws) :
    ∃ selection : List SampledElement, selection.Sublist found ∧ selection.length = min count found.length ∧
      ((kept count draws found).mergeSort fun a b => a.index ≤ b.index).map (·.truncate truncation) =
        selection.map (·.truncate truncation) := by
  let drawn := kept count draws found
  let selection := found.filter fun item => item.index ∈ drawn.map (·.index)
  have hsub : selection.Sublist found := List.filter_sublist
  have hindices : (found.map (·.index)).Nodup := List.pairwise_map.2 (hfound.imp fun hlt => hlt.ne)
  have hnodup : (drawn.map (·.index)).Nodup := by
    rw [← Reservoir.kept_map]
    exact Reservoir.nodup_kept hindices
  have hsame : (drawn.map (·.index)).toFinset = (selection.map (·.index)).toFinset := by
    ext index
    rw [List.mem_toFinset, List.mem_toFinset]
    constructor
    · intro hindex
      obtain ⟨item, hitem, rfl⟩ := List.mem_map.1 hindex
      exact List.mem_map_of_mem (List.mem_filter.2 ⟨Reservoir.mem_of_mem_kept hitem, decide_eq_true hindex⟩)
    · intro hindex
      obtain ⟨item, hitem, rfl⟩ := List.mem_map.1 hindex
      exact of_decide_eq_true (List.mem_filter.1 hitem).2
  have hsorted := (sorted_eq_iff hfound truncation (fun _ => Reservoir.mem_of_mem_kept) hnodup hsub).2 hsame
  refine ⟨selection, hsub, ?_, hsorted⟩
  have hlength := congrArg List.length hsorted
  rw [List.length_map, List.length_map, List.length_mergeSort] at hlength
  rw [← hlength, Reservoir.length_kept]

namespace Engine

/-- Whatever is drawn, a source that can be read has a sample. -/
theorem sample_isSample (engine : Engine) (source : Source) (options : SampleOptions) {elements : List Json}
    {path : Option Path} {filter : FilterSet}
    (helements : source.elements engine.config.stream engine.directory = .ok elements)
    (hpath : options.path.mapM Path.parse = .ok path) (hfilter : engine.filter options.filter = .ok filter)
    (draws : Draws) :
    ∃ result, engine.sample draws source options = .ok result ∧
      IsSample options path filter elements result := by
  let found := sampleMatches (sampleValue? path options.entityType filter) elements
  have hfound : found.Pairwise fun a b => a.index < b.index := pairwise_sampleMatches _ _
  have hmem : ∀ item : SampledElement, item ∈ found ↔ _ := fun item => mem_sampleMatches_iff _ _ _ _
  obtain ⟨selection, hsub, hlength, hitems⟩ :=
    exists_selection_eq_sorted hfound options.truncation options.count draws
  have hsample := sample_eq_ok helements hpath hfilter draws
  rw [hitems] at hsample
  refine ⟨_, hsample, length_sampleMatches _ _ _ _, ?_, ?_, ?_, ?_⟩
  · rw [List.length_map, hlength]
  · rw [List.map_map]
    exact List.pairwise_map.2 (hfound.sublist hsub)
  · intro item hitem
    obtain ⟨drawn, hdrawn, rfl⟩ := List.mem_map.1 hitem
    obtain ⟨element, helement, hmatches, hvalue⟩ := (hmem drawn).1 (hsub.subset hdrawn)
    exact ⟨element, helement, hmatches, congrArg options.truncation.apply hvalue⟩
  · intro hle index element helement hmatches
    have hall : selection = found := hsub.eq_of_length (hlength.trans (Nat.min_eq_right hle))
    rw [hall]
    exact List.mem_map.2 ⟨⟨index, valueAt path element⟩, (hmem _).2 ⟨element, helement, hmatches, rfl⟩, rfl⟩

/-- A sample of one out of two elements in which a wildcard selects something, between which a third stands. -/
theorem sample_isSample_of_wildcard :
    ∃ result, sample ⟨{}, threeItems⟩ (fun _ => 0) (.rootArray "a") { count := 1, path := some "[*]" } =
      .ok result ∧ result.matchedCount = 2 ∧ result.items.length = 1 := by
  have hpath : Path.parse "[*]" = .ok ⟨"[*]", [.wildcard]⟩ := by
    exact Path.parse_eq_ok_iff.2 ⟨.bracket Path.selects_star (.nil true), rfl⟩
  have hpaths : (some "[*]").mapM Path.parse = .ok (some ⟨"[*]", [.wildcard]⟩) := by
    show (Path.parse "[*]").map some = _
    rw [hpath]
    rfl
  obtain ⟨result, hresult, hsample⟩ :=
    sample_isSample ⟨{}, threeItems⟩ (.rootArray "a") { count := 1, path := some "[*]" } elements_threeItems
      hpaths rfl fun _ => 0
  have hmatched : result.matchedCount = 2 := hsample.matched
  refine ⟨result, hresult, hmatched, ?_⟩
  rw [hsample.length, hmatched]
  rfl

end Engine

end EntityDump
