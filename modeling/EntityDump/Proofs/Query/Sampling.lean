import EntityDump.Proofs.Sample.Uniformity
import EntityDump.Proofs.Scan
import EntityDump.Query.Sample
import Mathlib.SetTheory.Cardinal.Finite
/-!
# Samples as selections

The items of a sample are a selection of the elements that match, in order of the document and truncated
(`sample_eq_ok`). Every selection of the size of the sample is drawn by equally many sequences of choices, since
the reservoir keeps it for as many as any other (`card_choices_of_selection`).
-/

namespace EntityDump

open Json.Grammar (Derives IsBlank)
open Reservoir (kept)
open scoped Nat

/-- What a sample shows of an item. -/
def SampledElement.truncate (truncation : Truncation) (item : SampledElement) : SampledElement :=
  { item with value := truncation.apply item.value }

/-- The elements that match, in order of the document, with what a sample may hold of them. -/
def sampleMatches (value? : Json → Option Json) (elements : List Json) : List SampledElement :=
  elements.zipIdx.filterMap fun element => (value? element.1).map fun value => ⟨element.2, value⟩

/-! ### Selections -/

section Selections

variable {value? : Json → Option Json} {elements : List Json} {found drawn selection : List SampledElement}

/-- Matches stand in order of the document. -/
lemma pairwise_sampleMatches (value? : Json → Option Json) (elements : List Json) :
    (sampleMatches value? elements).Pairwise fun a b => a.index < b.index := by
  have hindices : (elements.zipIdx.map Prod.snd).Pairwise (· < ·) := by
    rw [List.zipIdx_map_snd]
    exact List.pairwise_lt_range'
  refine List.Pairwise.filterMap _ ?_ (List.pairwise_map.1 hindices)
  rintro a b hlt item hitem item' hitem'
  obtain ⟨_, -, rfl⟩ := Option.map_eq_some_iff.1 hitem
  obtain ⟨_, -, rfl⟩ := Option.map_eq_some_iff.1 hitem'
  exact hlt

/-- The matches are offered to the reservoir in order, and all elements are counted. -/
lemma foldIndexed_sampleStep (draws : Draws) (value? : Json → Option Json) (elements : List Json)
    (capacity : Nat) :
    foldIndexed (SampleState.step draws value?) elements 0 { reservoir := { capacity := capacity } } =
      ⟨.ofStream capacity draws (sampleMatches value? elements), elements.length⟩ := by
  have h : ∀ (elements : List Json) (index : Nat) (s : SampleState),
      foldIndexed (SampleState.step draws value?) elements index s =
        ⟨((elements.zipIdx index).filterMap fun element =>
          (value? element.1).map fun value => (⟨element.2, value⟩ : SampledElement)).foldl
            (Reservoir.offer draws) s.reservoir, s.scanned + elements.length⟩ := by
    intro elements
    unfold foldIndexed
    induction elements with
    | nil => exact fun _ _ => rfl
    | cons element elements ih =>
      intro index s
      rw [List.zipIdx_cons, List.foldl_cons, ih, List.filterMap_cons, List.length_cons]
      unfold SampleState.step
      cases value? element <;> simp [Nat.add_comm, Nat.add_left_comm]
  rw [h, Nat.zero_add]
  rfl

/-- Items drawn of the matches and put in order are a selection of them exactly if their indices are. -/
lemma sorted_eq_iff (hfound : found.Pairwise fun a b => a.index < b.index) (truncation : Truncation)
    (hdrawn : ∀ item ∈ drawn, item ∈ found) (hnodup : (drawn.map (·.index)).Nodup)
    (hselection : selection.Sublist found) :
    (drawn.mergeSort fun a b => a.index ≤ b.index).map (·.truncate truncation) =
        selection.map (·.truncate truncation) ↔
      (drawn.map (·.index)).toFinset = (selection.map (·.index)).toFinset := by
  have hperm := List.mergeSort_perm drawn fun a b => decide (a.index ≤ b.index)
  constructor
  · intro h
    have hindices := congrArg (List.map (·.index)) h
    rw [List.map_map, List.map_map] at hindices
    have hindices : (drawn.mergeSort fun a b => a.index ≤ b.index).map (·.index) =
        selection.map (·.index) := hindices
    rw [← hindices]
    exact List.toFinset_eq_of_perm _ _ (hperm.map _).symm
  · intro h
    have hdistinct : (found.map (·.index)).Nodup :=
      List.pairwise_map.2 (hfound.imp fun hlt => hlt.ne)
    -- Truncation may make items equal, but their indices tell them apart.
    have hinj : ∀ a ∈ found, ∀ b ∈ found, a.index = b.index → a = b := fun a ha b hb =>
      List.inj_on_of_nodup_map hdistinct ha hb
    have hmem : ∀ item, item ∈ drawn ↔ item ∈ selection := by
      intro item
      have hindex : item.index ∈ drawn.map (·.index) ↔ item.index ∈ selection.map (·.index) := by
        rw [← List.mem_toFinset, h, List.mem_toFinset]
      constructor
      · intro hitem
        obtain ⟨other, hother, heq⟩ := List.mem_map.1 (hindex.1 (List.mem_map_of_mem hitem))
        rwa [← hinj other (hselection.subset hother) item (hdrawn item hitem) heq]
      · intro hitem
        obtain ⟨other, hother, heq⟩ := List.mem_map.1 (hindex.2 (List.mem_map_of_mem hitem))
        rwa [← hinj other (hdrawn other hother) item (hselection.subset hitem) heq]
    have hsame : drawn.Perm selection := by
      refine (List.perm_ext_iff_of_nodup (List.Nodup.of_map _ hnodup) ?_).2 hmem
      exact hselection.nodup (List.Nodup.of_map _ hdistinct)
    have htrans : ∀ a b c : SampledElement, decide (a.index ≤ b.index) = true →
        decide (b.index ≤ c.index) = true → decide (a.index ≤ c.index) = true := by
      intro a b c hab hbc
      exact decide_eq_true ((of_decide_eq_true hab).trans (of_decide_eq_true hbc))
    have htotal : ∀ a b : SampledElement,
        (decide (a.index ≤ b.index) || decide (b.index ≤ a.index)) = true := by
      intro a b
      simpa using Nat.le_total a.index b.index
    have hsorted : (drawn.mergeSort fun a b => a.index ≤ b.index).Pairwise
        fun a b => a.index ≤ b.index :=
      (List.pairwise_mergeSort htrans htotal drawn).imp of_decide_eq_true
    congr 1
    refine List.Perm.eq_of_pairwise (fun a b ha hb hab hba => ?_) hsorted
      ((hfound.sublist hselection).imp fun hlt => hlt.le) (hperm.trans hsame)
    exact hinj a (hdrawn a (hperm.mem_iff.1 ha)) b (hselection.subset hb) (Nat.le_antisymm hab hba)

end Selections

/-! ### The items of a sample -/

namespace Engine

section Sample

variable {engine : Engine} {source : Source} {options : SampleOptions} {elements : List Json}
  {path : Option Path} {filter : FilterSet}

/-- The sample that is drawn of a source that can be read. -/
lemma sample_eq_ok (helements : source.elements engine.config.stream engine.directory = .ok elements)
    (hpath : options.path.mapM Path.parse = .ok path) (hfilter : engine.filter options.filter = .ok filter)
    (draws : Draws) :
    engine.sample draws source options = .ok
      ⟨((kept options.count draws
          (sampleMatches (sampleValue? path options.entityType filter) elements)).mergeSort
            fun a b => a.index ≤ b.index).map (·.truncate options.truncation),
        elements.length, (sampleMatches (sampleValue? path options.entityType filter) elements).length,
        filter.filterIgnored⟩ := by
  unfold sample
  simp only [hpath, hfilter, Source.fold_eq_map_elements, helements, foldIndexed_sampleStep, Except.map,
    bind, Except.bind, pure, Except.pure, Reservoir.seen_ofStream]
  rfl

/-- A sample depends on its draws only through the choices for the matches that find the reservoir full. It
draws every selection of its size of the matches by equally many sequences of choices. -/
theorem card_choices_of_selection (engine : Engine) (source : Source) (options : SampleOptions)
    (elements : List Json) (path : Option Path) (filter : FilterSet)
    (helements : source.elements engine.config.stream engine.directory = .ok elements)
    (hpath : options.path.mapM Path.parse = .ok path)
    (hfilter : engine.filter options.filter = .ok filter) :
    let found := sampleMatches (sampleValue? path options.entityType filter) elements
    let overflow := found.length - options.count
    (∀ draws, ∃ result, engine.sample draws source options = .ok result ∧
      result.matchedCount = found.length ∧
      engine.sample (.ofChoices (draws.choices options.count overflow)) source options = .ok result) ∧
    ∀ selection : List SampledElement, selection.Sublist found → selection.length = options.count →
      Nat.card {c : Choices options.count overflow //
        (engine.sample (.ofChoices c) source options).map (·.items) =
          .ok (selection.map (·.truncate options.truncation))} = overflow ! := by
  intro found overflow
  refine ⟨fun draws => ?_, fun selection hselection hlength => ?_⟩
  · have hchoices : kept options.count (.ofChoices (draws.choices options.count overflow)) found =
        kept options.count draws found := Reservoir.kept_ofChoices_choices draws found
    have hsample := sample_eq_ok helements hpath hfilter
    refine ⟨_, hsample draws, rfl, ?_⟩
    rw [hsample, hchoices]
  have hfound : found.Pairwise fun a b => a.index < b.index := pairwise_sampleMatches _ _
  have hindices : (found.map (·.index)).Nodup := List.pairwise_map.2 (hfound.imp fun hlt => hlt.ne)
  have hsub : (selection.map (·.index)).Sublist (found.map (·.index)) := hselection.map _
  -- Only the indices of the items matter for what is drawn, so choices that keep indices are counted.
  have hdrawn : ∀ c : Choices options.count overflow,
      (engine.sample (.ofChoices c) source options).map (·.items) =
          .ok (selection.map (·.truncate options.truncation)) ↔
        c ∈ Reservoir.choicesKeeping options.count overflow (found.map (·.index))
          (selection.map (·.index)).toFinset := by
    intro c
    rw [sample_eq_ok helements hpath hfilter, Reservoir.mem_choicesKeeping, Reservoir.keptBy,
      Reservoir.kept_map, ← sorted_eq_iff hfound options.truncation
        (fun item => Reservoir.mem_of_mem_kept) ?_ hselection]
    · exact ⟨fun h => Except.ok.inj h, fun h => congrArg Except.ok h⟩
    · rw [← Reservoir.kept_map]
      exact Reservoir.nodup_kept hindices
  rw [Nat.card_congr (Equiv.subtypeEquivRight hdrawn), Nat.card_eq_fintype_card, Fintype.card_coe]
  refine Reservoir.card_choicesKeeping hindices ?_ ?_ ?_
  · have hle := hselection.length_le
    rw [List.length_map]
    omega
  · exact fun index hindex => List.mem_toFinset.2 (hsub.subset (List.mem_toFinset.1 hindex))
  · rw [List.toFinset_card_of_nodup (hsub.nodup hindices), List.length_map, hlength]

end Sample

/-- A file with the text `[true,null]`. -/
def twoScalars : Directory :=
  ⟨[("a", [0x5b, 0x74, 0x72, 0x75, 0x65, 0x2c, 0x6e, 0x75, 0x6c, 0x6c, 0x5d])]⟩

/-- Of two elements one is sampled, and one of the two choices gives the second. -/
theorem card_choices_of_second :
    Nat.card {c : Choices 1 1 //
      (sample ⟨{}, twoScalars⟩ (.ofChoices c) (.rootArray "a") { count := 1 }).map (·.items) =
        .ok [⟨1, .null⟩]} = 1 := by
  have hblank : IsBlank [] := by simp [IsBlank]
  have htrue : Derives [0x74, 0x72, 0x75, 0x65] (.element (.scalar (.bool true))) :=
    .element hblank (.scalar .true) hblank
  have hnull : Derives [0x6e, 0x75, 0x6c, 0x6c] (.element (.scalar .null)) :=
    .element hblank (.scalar .null) hblank
  have helements : (Source.rootArray "a").elements {} twoScalars = .ok [.bool true, .null] :=
    Source.elements_of_isText (.rootArray "a") {} twoScalars (by decide)
      (.element hblank (.array (.item htrue (.lastItem hnull))) hblank) (by decide)
  exact (card_choices_of_selection ⟨{}, twoScalars⟩ (.rootArray "a") { count := 1 } [.bool true, .null]
    none {} helements rfl rfl).2 [⟨1, .null⟩] (.cons _ (.refl _)) rfl

end Engine

end EntityDump
