import EntityDump.Proofs.Query.Numbers
/-!
# Aggregates per group

Each element gives its aggregates to the groups of its keys, once for every time it has a key
(`aggregatesGiven`). What a group holds is what was given to its key, merged (`Groups.Holds`), so a group counts
its elements, their numbers and those of them that meet the condition with the number of times they have the key
(`Engine.aggregate_counts_occurrences`). An element that has a key twice is counted twice.

The groups are those of a grouping by the same path, and if each element has one key, nothing that is counted is
lost: `Engine.aggregate_partitions_elements`.
-/

namespace EntityDump

/-! ### What elements give -/

/-- The numbers of several elements are those of each of them. -/
lemma length_numbersAt (path : Path) (elements : List Json) :
    (numbersAt path elements).length = (elements.map fun element => (numbersAt path [element]).length).sum := by
  simp only [numbersAt_singleton]
  exact List.length_flatMap

/-- A count is a sum of ones. -/
lemma countP_eq_sum_ite {ι : Type} (p : ι → Bool) (items : List ι) :
    items.countP p = (items.map fun item => if p item then 1 else 0).sum := by
  induction items with
  | nil => rfl
  | cons item items ih => rw [List.countP_cons, ih, List.map_cons, List.sum_cons, Nat.add_comm]

/-- The element meets the condition that is counted; if there is none, no element does. -/
def meetsCondition (countIf : FilterSet) (element : Json) : Bool :=
  !countIf.isEmpty && countIf.accepts element

/-- An element counts its numbers, and as one match if it meets the condition. -/
lemma counts_elementAggregates (valuePath : Path) (countIf : FilterSet) (element : Json) :
    (elementAggregates valuePath countIf element).count = (numbersAt valuePath [element]).length ∧
      (elementAggregates valuePath countIf element).conditionCount =
        if meetsCondition countIf element then 1 else 0 := by
  obtain ⟨hcount, hcondition⟩ := Accumulator.counts_foldl_add .empty (numbersAt valuePath [element])
  have hnumbers : Accumulator.empty.updateValues (valuePath.select element) =
      (numbersAt valuePath [element]).foldl .add .empty := by
    rw [numbersAt_singleton, Accumulator.updateValues_eq]
  unfold elementAggregates meetsCondition
  rw [hnumbers]
  dsimp only
  split
  · exact ⟨hcount.trans (Nat.zero_add _), congrArg (· + 1) hcondition⟩
  · exact ⟨hcount.trans (Nat.zero_add _), hcondition⟩

/-- The aggregates that elements give to groups: those of each element, under each of its keys. -/
def aggregatesGiven (groupPath valuePath : Path) (countIf : FilterSet) (elements : List Json) :
    List (String × Accumulator Float) :=
  elements.flatMap fun element =>
    (groupKeys groupPath element).map (·, elementAggregates valuePath countIf element)

section Given

variable {groupPath valuePath : Path} {countIf : FilterSet}

/-- Aggregates are given to the keys of the elements, in order. -/
lemma map_fst_aggregatesGiven (elements : List Json) :
    (aggregatesGiven groupPath valuePath countIf elements).map Prod.fst =
      elements.flatMap (groupKeys groupPath) := by
  rw [aggregatesGiven, List.map_flatMap]
  congr 1
  funext element
  rw [List.map_map]
  exact List.map_id _

/-- What is given to a key comes from each element as often as it has the key. -/
lemma sum_given_to (weight : Accumulator Float → ℕ) (elements : List Json) (key : String) :
    (((aggregatesGiven groupPath valuePath countIf elements).filter (·.1 = key)).map
        fun given => weight given.2).sum =
      (elements.map fun element => (groupKeys groupPath element).count key *
        weight (elementAggregates valuePath countIf element)).sum := by
  induction elements with
  | nil => rfl
  | cons element elements ih =>
    have hfirst : ((((groupKeys groupPath element).map (·, elementAggregates valuePath countIf element)).filter
        (·.1 = key)).map fun given => weight given.2).sum =
          (groupKeys groupPath element).count key * weight (elementAggregates valuePath countIf element) := by
      rw [List.filter_map, List.map_map, List.count_eq_length_filter]
      simp [Function.comp_def, beq_eq_decide]
    rw [List.map_cons, List.sum_cons, ← ih, ← hfirst, ← List.sum_append, ← List.map_append,
      ← List.filter_append]
    rfl

/-- If each element has one key, what is given counts once for each element. -/
lemma sum_given (hone : ∀ element, (groupKeys groupPath element).length = 1)
    (weight : Accumulator Float → ℕ) (elements : List Json) :
    ((aggregatesGiven groupPath valuePath countIf elements).map fun given => weight given.2).sum =
      (elements.map fun element => weight (elementAggregates valuePath countIf element)).sum := by
  induction elements with
  | nil => rfl
  | cons element elements ih =>
    obtain ⟨key, hkey⟩ := List.length_eq_one_iff.1 (hone element)
    rw [List.map_cons, List.sum_cons, ← ih, aggregatesGiven, List.flatMap_cons, hkey]
    rfl

end Given

/-! ### Items that count several times -/

section Times

variable {ι : Type} {times : ι → ℕ} {items : List ι}

/-- Items that count at most once add their weights if they count. -/
lemma sum_mul_of_le_one (hone : ∀ item ∈ items, times item ≤ 1) (weight : ι → ℕ) :
    (items.map fun item => times item * weight item).sum =
      ((items.filter (0 < times ·)).map weight).sum := by
  induction items with
  | nil => rfl
  | cons item items ih =>
    obtain ⟨hitem, hitems⟩ := List.forall_mem_cons.1 hone
    rw [List.map_cons, List.sum_cons, ih hitems]
    obtain hzero | hpos : times item = 0 ∨ times item = 1 := by omega
    · simp [hzero]
    · simp [hpos]

/-- All counts together are no fewer than the items that count. -/
lemma length_filter_pos_le_sum (times : ι → ℕ) (items : List ι) :
    (items.filter (0 < times ·)).length ≤ (items.map times).sum := by
  induction items with
  | nil => exact Nat.le.refl
  | cons item items ih =>
    rw [List.map_cons, List.sum_cons]
    by_cases hpos : 0 < times item
    · rw [List.filter_cons_of_pos (by simpa using hpos), List.length_cons]
      omega
    · rw [List.filter_cons_of_neg (by simpa using hpos)]
      omega

/-- All counts together are as many as the items that count exactly if no item counts twice. -/
lemma sum_eq_length_filter_pos_iff :
    (items.map times).sum = (items.filter (0 < times ·)).length ↔ ∀ item ∈ items, times item ≤ 1 := by
  induction items with
  | nil => simp
  | cons item items ih =>
    have hle := length_filter_pos_le_sum times items
    rw [List.forall_mem_cons, ← ih, List.map_cons, List.sum_cons]
    by_cases hpos : 0 < times item
    · rw [List.filter_cons_of_pos (by simpa using hpos), List.length_cons]
      omega
    · rw [List.filter_cons_of_neg (by simpa using hpos)]
      omega

end Times

/-! ### Groups -/

namespace Accumulator

/-- Merged accumulators count what each of them counted. -/
lemma counts_foldl_merge (a : Accumulator Float) (merged : List (Accumulator Float)) :
    (merged.foldl merge a).count = a.count + (merged.map (·.count)).sum ∧
      (merged.foldl merge a).conditionCount = a.conditionCount + (merged.map (·.conditionCount)).sum := by
  induction merged generalizing a with
  | nil => exact ⟨rfl, rfl⟩
  | cons b merged ih =>
    obtain ⟨hcount, hcondition⟩ := ih (a.merge b)
    have hmerge : (a.merge b).count = a.count + b.count ∧
        (a.merge b).conditionCount = a.conditionCount + b.conditionCount := ⟨rfl, rfl⟩
    rw [List.foldl_cons, hcount, hcondition, hmerge.1, hmerge.2, List.map_cons, List.map_cons, List.sum_cons,
      List.sum_cons]
    constructor <;> omega

end Accumulator

namespace Groups

variable {groups : Groups} {given : List (String × Accumulator Float)}

/-- What was given to a key: how often, and all of it merged. -/
def gathered (given : List (String × Accumulator Float)) (key : String) : ℕ × Accumulator Float :=
  ((given.filter (·.1 = key)).length,
    ((given.filter (·.1 = key)).map Prod.snd).foldl .merge .empty)

/-- Something more is given to its key, and nothing to another one. -/
lemma gathered_concat (given : List (String × Accumulator Float)) (key k : String) (a : Accumulator Float) :
    gathered (given ++ [(key, a)]) k =
      if key = k then ((gathered given k).1 + 1, (gathered given k).2.merge a) else gathered given k := by
  unfold gathered
  rw [List.filter_append]
  by_cases h : key = k
  · simp [h]
  · simp [h]

/-- A key gathers as many elements as are given to it. -/
lemma fst_gathered (given : List (String × Accumulator Float)) (key : String) :
    (gathered given key).1 = (given.map Prod.fst).count key := by
  rw [gathered, List.count_eq_length_filter, List.filter_map, List.length_map]
  simp [Function.comp_def, beq_eq_decide]

/-- What was given to a key is counted together. -/
lemma counts_gathered (given : List (String × Accumulator Float)) (key : String) :
    (gathered given key).2.count = ((given.filter (·.1 = key)).map fun entry => entry.2.count).sum ∧
      (gathered given key).2.conditionCount =
        ((given.filter (·.1 = key)).map fun entry => entry.2.conditionCount).sum := by
  obtain ⟨hcount, hcondition⟩ :=
    Accumulator.counts_foldl_merge .empty ((given.filter (·.1 = key)).map Prod.snd)
  rw [List.map_map] at hcount hcondition
  exact ⟨hcount.trans (Nat.zero_add _), hcondition.trans (Nat.zero_add _)⟩

/-- There is a group for every key to which something was given, and it holds that. -/
def Holds (groups : Groups) (given : List (String × Accumulator Float)) : Prop :=
  ∀ key, groups[key]? = if key ∈ given.map Prod.fst then some (gathered given key) else none

lemma holds_nil : Holds {} [] := by
  intro key
  simp

/-- A key without a group stands for the group to which nothing was given. -/
lemma Holds.getD_eq (h : groups.Holds given) (key : String) :
    groups[key]?.getD (0, .empty) = gathered given key := by
  rw [h key]
  split
  · rfl
  · next hkey =>
    have hown : given.filter (·.1 = key) = [] := by
      rw [List.filter_eq_nil_iff]
      intro entry hentry heq
      exact hkey (List.mem_map.2 ⟨entry, hentry, of_decide_eq_true heq⟩)
    rw [gathered, hown]
    rfl

/-- Giving an aggregate to a key changes the group of this key alone. -/
lemma getElem?_add (a : Accumulator Float) (groups : Groups) (key k : String) :
    (groups.add a key)[k]? =
      if key = k then
        some ((groups[k]?.getD (0, .empty)).1 + 1, (groups[k]?.getD (0, .empty)).2.merge a)
      else groups[k]? := by
  rw [add, Std.TreeMap.getElem?_alter]
  by_cases h : key = k
  · subst h
    simp
  · simp [h]

/-- What is given to a key goes to its group. -/
lemma Holds.add (h : groups.Holds given) (a : Accumulator Float) (key : String) :
    (groups.add a key).Holds (given ++ [(key, a)]) := by
  intro k
  have hmem : k ∈ (given ++ [(key, a)]).map Prod.fst ↔ k ∈ given.map Prod.fst ∨ k = key := by
    rw [List.map_append, List.mem_append, List.map_singleton, List.mem_singleton]
  rw [getElem?_add, h.getD_eq, gathered_concat]
  by_cases hkey : key = k
  · rw [if_pos hkey, if_pos hkey, if_pos (hmem.2 (.inr hkey.symm))]
  · rw [if_neg hkey, if_neg hkey, h k]
    simp only [hmem, Ne.symm hkey, or_false]

/-- What is given to several keys goes to their groups. -/
lemma Holds.foldl_add (h : groups.Holds given) (more : List (String × Accumulator Float)) :
    (more.foldl (fun groups entry => groups.add entry.2 entry.1) groups).Holds (given ++ more) := by
  induction more generalizing groups given with
  | nil => rwa [List.append_nil]
  | cons entry more ih =>
    have hrest := ih (h.add entry.2 entry.1)
    rwa [List.append_assoc, List.singleton_append] at hrest

end Groups

namespace AggregateState

/-- The groups take what an element that passes gives, and nothing from another one. -/
lemma groups_step (groupPath valuePath : Path) (filter countIf : FilterSet) (s : AggregateState)
    (element : Json) :
    (step groupPath valuePath filter countIf s element).groups =
      if filter.accepts element then
        ((groupKeys groupPath element).map (·, elementAggregates valuePath countIf element)).foldl
          (fun groups entry => groups.add entry.2 entry.1) s.groups
      else s.groups := by
  unfold step
  split
  · rw [List.foldl_map]
  · rfl

/-- The groups take what the elements that pass give. -/
lemma groups_foldl_step (groupPath valuePath : Path) (filter countIf : FilterSet) (s : AggregateState)
    (elements : List Json) :
    (elements.foldl (step groupPath valuePath filter countIf) s).groups =
      (aggregatesGiven groupPath valuePath countIf (elements.filter filter.accepts)).foldl
        (fun groups entry => groups.add entry.2 entry.1) s.groups := by
  rw [aggregatesGiven, List.foldl_flatMap]
  exact foldl_eq_foldl_filter groups _ (groups_step groupPath valuePath filter countIf) elements s

end AggregateState

namespace Groups

variable {groups : Groups} {given : List (String × Accumulator Float)}

/-! ### The list of groups -/

/-- By key and number of elements, groups are ranked as the entries of a tally are. -/
lemma map_ranked (groups : Groups) :
    (groups.ranked.map fun g => (g.key, g.elements)) =
      Tally.rank (groups.toList.map fun entry => (entry.1, entry.2.1)) := by
  have hsort := List.map_mergeSort (f := fun g : AggregateGroup => (g.key, g.elements))
    (s := Tally.ranksNoLower)
    (l := groups.toList.map fun entry => AggregateGroup.ofAccumulator entry.1 entry.2.1 entry.2.2)
    (r := fun a b => b.elements < a.elements || (a.elements == b.elements && a.key ≤ b.key))
    fun _ _ _ _ => rfl
  rw [List.map_map] at hsort
  exact hsort

/-- The groups tally the keys to which something was given. -/
lemma Holds.tally (h : groups.Holds given) :
    Tally.Of (given.map Prod.fst) (groups.ranked.map fun g => (g.key, g.elements)) := by
  rw [map_ranked]
  refine Tally.of_rank ?_ ?_
  · rw [List.map_map]
    exact Tally.nodup_keys_toList groups
  · intro key count
    rw [List.mem_map]
    constructor
    · rintro ⟨⟨k, entry⟩, hentry, heq⟩
      obtain ⟨rfl, rfl⟩ := Prod.mk.inj heq
      rw [Std.TreeMap.mem_toList_iff_getElem?_eq_some, h k] at hentry
      split at hentry
      · next hkey =>
        obtain rfl := Option.some.inj hentry
        exact ⟨hkey, fst_gathered given k⟩
      · cases hentry
    · rintro ⟨hkey, rfl⟩
      refine ⟨(key, gathered given key), ?_, ?_⟩
      · rw [Std.TreeMap.mem_toList_iff_getElem?_eq_some, h key, if_pos hkey]
      · rw [fst_gathered]

/-- A group in the list shows what was given to its key. -/
lemma Holds.of_mem_ranked (h : groups.Holds given) {g : AggregateGroup} (hg : g ∈ groups.ranked) :
    g.elements = ((given.filter (·.1 = g.key)).map fun _ => 1).sum ∧
      g.count = ((given.filter (·.1 = g.key)).map fun entry => entry.2.count).sum ∧
      g.conditionCount = ((given.filter (·.1 = g.key)).map fun entry => entry.2.conditionCount).sum := by
  rw [ranked, List.mem_mergeSort] at hg
  obtain ⟨⟨key, entry⟩, hentry, rfl⟩ := List.mem_map.1 hg
  rw [Std.TreeMap.mem_toList_iff_getElem?_eq_some] at hentry
  have hgathered := h.getD_eq key
  rw [hentry] at hgathered
  obtain rfl : entry = gathered given key := hgathered
  refine ⟨?_, counts_gathered given key⟩
  rw [List.map_const', List.sum_replicate, smul_eq_mul, Nat.mul_one]
  rfl

/-- Over all groups, everything that was given counts once. -/
lemma Holds.sum_ranked (h : groups.Holds given) {shown : AggregateGroup → ℕ}
    (weight : Accumulator Float → ℕ)
    (hshown : ∀ g ∈ groups.ranked,
      shown g = ((given.filter (·.1 = g.key)).map fun entry => weight entry.2).sum) :
    (groups.ranked.map shown).sum = (given.map fun entry => weight entry.2).sum := by
  have hkeys : (groups.ranked.map fun g => (g.key, g.elements)).map Prod.fst = groups.ranked.map (·.key) := by
    rw [List.map_map]
    rfl
  have hnodup : (groups.ranked.map (·.key)).Nodup := hkeys ▸ h.tally.nodup_keys
  have hmem : ∀ entry ∈ given, entry.1 ∈ groups.ranked.map (·.key) := by
    intro entry hentry
    rw [← hkeys, h.tally.mem_keys_iff]
    exact List.mem_map_of_mem hentry
  rw [List.map_congr_left hshown, ← sum_map_filter_eq hnodup hmem, List.map_map]
  rfl

end Groups

/-! ### Aggregates -/

namespace Engine

variable {engine : Engine} {source : Source} {elements : List Json} {groupPath valuePath : Path}
  {filter countIf : FilterSet}

/-- The aggregates of a source that can be read. -/
lemma exists_aggregate (options : AggregateOptions)
    (helements : source.elements engine.config.stream engine.directory = .ok elements)
    (hgroup : Path.parse options.groupPath = .ok groupPath)
    (hvalue : Path.parse options.valuePath = .ok valuePath)
    (hfilter : engine.filter options.filter = .ok filter)
    (hcountIf : engine.filter options.countIf = .ok countIf) :
    ∃ groups : Groups,
      groups.Holds (aggregatesGiven groupPath valuePath countIf (elements.filter filter.accepts)) ∧
        engine.aggregate source options = .ok
          ⟨groups.ranked, (elements.filter filter.accepts).length, elements.length,
            filter.filterIgnored || countIf.filterIgnored⟩ := by
  obtain ⟨hscanned, htotal⟩ :=
    (AggregateState.counts filter groupPath valuePath countIf).foldl elements {}
  have hgroups : (elements.foldl (.step groupPath valuePath filter countIf) ({} : AggregateState)).groups.Holds
      (aggregatesGiven groupPath valuePath countIf (elements.filter filter.accepts)) := by
    rw [AggregateState.groups_foldl_step]
    exact Groups.holds_nil.foldl_add _
  refine ⟨_, hgroups, ?_⟩
  unfold aggregate
  simp only [hgroup, hvalue, hfilter, hcountIf, scan_eq_ok helements, bind, Except.bind, pure, Except.pure,
    hscanned, htotal, Nat.zero_add, List.countP_eq_length_filter]

/-- There is a group for each key of the elements that pass. -/
lemma exists_mem_groups (engine : Engine) (source : Source) (options : AggregateOptions)
    (helements : source.elements engine.config.stream engine.directory = .ok elements)
    (hgroup : Path.parse options.groupPath = .ok groupPath)
    (hvalue : Path.parse options.valuePath = .ok valuePath)
    (hfilter : engine.filter options.filter = .ok filter)
    (hcountIf : engine.filter options.countIf = .ok countIf) (key : String)
    (hkey : key ∈ (elements.filter filter.accepts).flatMap (groupKeys groupPath)) :
    ∃ r, engine.aggregate source options = .ok r ∧ ∃ g ∈ r.groups, g.key = key ∧
      g.elements = ((elements.filter filter.accepts).flatMap (groupKeys groupPath)).count key := by
  obtain ⟨groups, hholds, haggregate⟩ := exists_aggregate options helements hgroup hvalue hfilter hcountIf
  have htally := hholds.tally
  rw [map_fst_aggregatesGiven] at htally
  obtain ⟨g, hg, heq⟩ := List.mem_map.1 ((htally.mem_iff key _).2 ⟨hkey, rfl⟩)
  obtain ⟨hkeyEq, helements⟩ := Prod.mk.inj heq
  exact ⟨_, haggregate, g, hg, hkeyEq, helements⟩

/-- A group counts its elements, their numbers and those of them that meet the condition with the number of times
they have its key. These are the counts of the elements that have the key exactly if none of them has it twice, and
then there are no more of them than elements that pass. -/
theorem aggregate_counts_occurrences (engine : Engine) (source : Source) (options : AggregateOptions)
    (helements : source.elements engine.config.stream engine.directory = .ok elements)
    (hgroup : Path.parse options.groupPath = .ok groupPath)
    (hvalue : Path.parse options.valuePath = .ok valuePath)
    (hfilter : engine.filter options.filter = .ok filter)
    (hcountIf : engine.filter options.countIf = .ok countIf) :
    let found := elements.filter filter.accepts
    ∃ r, engine.aggregate source options = .ok r ∧ r.total = found.length ∧ ∀ g ∈ r.groups,
      let times (element : Json) : ℕ := (groupKeys groupPath element).count g.key
      let members := found.filter fun element => g.key ∈ groupKeys groupPath element
      g.elements = (found.map times).sum ∧
      g.count = (found.map fun e => times e * (numbersAt valuePath [e]).length).sum ∧
      g.conditionCount = (found.map fun e => times e * if meetsCondition countIf e then 1 else 0).sum ∧
      (g.elements = members.length ↔ ∀ e ∈ found, times e ≤ 1) ∧
      ((∀ e ∈ found, times e ≤ 1) → g.count = (numbersAt valuePath members).length ∧
        g.conditionCount = members.countP (meetsCondition countIf) ∧ g.elements ≤ r.total) := by
  intro found
  obtain ⟨groups, hholds, haggregate⟩ := exists_aggregate options helements hgroup hvalue hfilter hcountIf
  refine ⟨_, haggregate, rfl, ?_⟩
  intro g hg times members
  obtain ⟨helements, hcount, hcondition⟩ := hholds.of_mem_ranked hg
  rw [sum_given_to fun _ => 1] at helements
  rw [sum_given_to (·.count)] at hcount
  rw [sum_given_to (·.conditionCount)] at hcondition
  simp only [counts_elementAggregates, Nat.mul_one] at helements hcount hcondition
  have hmembers : members = found.filter (0 < times ·) := by
    refine List.filter_congr fun element _ => ?_
    simp only [times, List.count_pos_iff]
  -- A sum of positive numbers is as large as there are of them only if all are one.
  have honce : g.elements = members.length ↔ ∀ e ∈ found, times e ≤ 1 := by
    rw [helements, hmembers]
    exact sum_eq_length_filter_pos_iff
  refine ⟨helements, hcount, hcondition, honce, ?_⟩
  intro hone
  refine ⟨?_, ?_, ?_⟩
  · rw [hcount, hmembers]
    exact (sum_mul_of_le_one hone _).trans (length_numbersAt _ _).symm
  · rw [hcondition, hmembers]
    exact (sum_mul_of_le_one hone _).trans (countP_eq_sum_ite _ _).symm
  · rw [honce.2 hone]
    exact List.length_filter_le _ found

/-- A key that one element has twice counts twice with its number. -/
theorem aggregate_counts_occurrences_of_repeated :
    ∃ r, aggregate ⟨{}, numberedItems⟩ (.rootArray "a")
        ⟨"[0][*]", "[1]", none, some "[1] exists"⟩ = .ok r ∧
      ∃ g ∈ r.groups, g.key = "true" ∧ g.elements = 2 ∧ g.count = 2 ∧ g.conditionCount = 2 := by
  have hmeets : (filter ⟨{}, numberedItems⟩ (some "[1] exists")).toOption.map
      (fun f => numberedElements.all (meetsCondition f)) = some true := by decide +kernel
  cases hcountIf : filter ⟨{}, numberedItems⟩ (some "[1] exists") with
  | error e =>
    rw [hcountIf] at hmeets
    cases hmeets
  | ok countIf =>
    rw [hcountIf] at hmeets
    have hall := List.all_eq_true.1 (Option.some.inj hmeets)
    have hfilter : filter ⟨{}, numberedItems⟩ none = .ok {} := rfl
    obtain ⟨r, hr, g, hg, hkey, htwice⟩ := exists_mem_groups ⟨{}, numberedItems⟩ (.rootArray "a")
      ⟨"[0][*]", "[1]", none, some "[1] exists"⟩ elements_numberedItems parse_firstItems parse_second hfilter
      hcountIf "true" (by decide +kernel)
    obtain ⟨r', hr', -, hgroups⟩ := aggregate_counts_occurrences ⟨{}, numberedItems⟩ (.rootArray "a")
      ⟨"[0][*]", "[1]", none, some "[1] exists"⟩ elements_numberedItems parse_firstItems parse_second hfilter
      hcountIf
    obtain rfl : r = r' := Except.ok.inj (hr.symm.trans hr')
    obtain ⟨helements, hcount, hcondition, -⟩ := hgroups g hg
    refine ⟨r, hr, g, hg, hkey, ?_, ?_, ?_⟩
    · rw [helements, hkey]
      decide +kernel
    · rw [hcount, hkey]
      decide +kernel
    · rw [hcondition, hkey, List.map_congr_left fun e he => by
        rw [hall e (List.mem_of_mem_filter he), if_pos rfl]]
      decide +kernel

/-- An element that has a key twice is counted twice in the group of the key, so groups do not count each of their
elements once. -/
theorem not_aggregate_counts_once :
    ¬ ∀ (engine : Engine) (source : Source) (options : AggregateOptions) (elements : List Json)
      (groupPath valuePath : Path) (filter countIf : FilterSet),
      source.elements engine.config.stream engine.directory = .ok elements →
      Path.parse options.groupPath = .ok groupPath → Path.parse options.valuePath = .ok valuePath →
      engine.filter options.filter = .ok filter → engine.filter options.countIf = .ok countIf →
      ∃ r, engine.aggregate source options = .ok r ∧ ∀ g ∈ r.groups,
        let members := (elements.filter filter.accepts).filter fun element => g.key ∈ groupKeys groupPath element
        g.elements = members.length ∧ g.count = (numbersAt valuePath members).length ∧
          g.conditionCount = members.countP (meetsCondition countIf) ∧ g.elements ≤ r.total := by
  intro h
  have hkeys : (numberedElements.filter (FilterSet.accepts {})).flatMap
      (groupKeys ⟨"[0][*]", [.index 0, .wildcard]⟩) = ["true", "true", "undefined"] := by decide +kernel
  obtain ⟨r, hr, hgroups⟩ := h ⟨{}, numberedItems⟩ (.rootArray "a") ⟨"[0][*]", "[1]", none, none⟩
    numberedElements _ _ {} {} elements_numberedItems parse_firstItems parse_second rfl rfl
  have hfilter : filter ⟨{}, numberedItems⟩ none = .ok {} := rfl
  obtain ⟨r', hr', g, hg, hkey, htwice⟩ := exists_mem_groups ⟨{}, numberedItems⟩ (.rootArray "a")
    ⟨"[0][*]", "[1]", none, none⟩ elements_numberedItems parse_firstItems parse_second hfilter hfilter "true"
    (by rw [hkeys]; decide)
  obtain rfl : r = r' := Except.ok.inj (hr.symm.trans hr')
  have honce := (hgroups g hg).1
  rw [htwice, hkeys, hkey] at honce
  revert honce
  decide +kernel

/-- The groups are those of a grouping by the same path under the same filter. If the path has no wildcards, every
element that passes is in one group: the elements of the groups add up to those that pass, the counts to that of the
statistics, and the matches of a condition that is given to the elements that pass and meet it. -/
theorem aggregate_partitions_elements (engine : Engine) (source : Source) (options : AggregateOptions)
    (helements : source.elements engine.config.stream engine.directory = .ok elements)
    (hgroup : Path.parse options.groupPath = .ok groupPath)
    (hvalue : Path.parse options.valuePath = .ok valuePath)
    (hfilter : engine.filter options.filter = .ok filter)
    (hcountIf : engine.filter options.countIf = .ok countIf) :
    ∃ r groups stats, engine.aggregate source options = .ok r ∧
      engine.groupBy source options.groupPath options.filter = .ok groups ∧
      engine.stats source options.valuePath options.filter = .ok stats ∧
      (r.groups.map fun g => (g.key, g.elements)) = groups.groups ∧
      r.total = groups.total ∧ r.scanned = groups.scanned ∧
      (groupPath.hasWildcard = false →
        (r.groups.map (·.elements)).sum = r.total ∧ (r.groups.map (·.count)).sum = stats.count ∧
          (countIf.isEmpty = false → (r.groups.map (·.conditionCount)).sum =
            elements.countP fun element => filter.accepts element && countIf.accepts element)) := by
  obtain ⟨groups, hholds, haggregate⟩ := exists_aggregate options helements hgroup hvalue hfilter hcountIf
  obtain ⟨stats, hstats, hcount, -⟩ := exists_stats helements hvalue hfilter
  have htally := hholds.tally
  rw [map_fst_aggregatesGiven] at htally
  refine ⟨_, _, stats, haggregate, groupBy_eq_ok helements hgroup hfilter, hstats,
    htally.unique (Tally.of_ranked _), rfl, rfl, ?_⟩
  intro hwildcard
  -- Without a wildcard no element has two keys, so sums over groups are sums over elements.
  have hone := length_groupKeys hwildcard
  refine ⟨?_, ?_, ?_⟩
  · rw [hholds.sum_ranked (fun _ => 1) fun g hg => (hholds.of_mem_ranked hg).1, sum_given hone fun _ => 1]
    simp
  · rw [hholds.sum_ranked (·.count) fun g hg => (hholds.of_mem_ranked hg).2.1, sum_given hone (·.count),
      hcount, length_numbersAt]
    simp only [counts_elementAggregates]
  · intro hgiven
    rw [hholds.sum_ranked (·.conditionCount) fun g hg => (hholds.of_mem_ranked hg).2.2,
      sum_given hone (·.conditionCount)]
    simp only [counts_elementAggregates]
    rw [← countP_eq_sum_ite, List.countP_filter]
    simp [meetsCondition, hgiven, Bool.and_comm]

/-- Two elements in two groups, with a number each, and both meet the condition. -/
theorem aggregate_partitions_elements_of_two :
    ∃ r stats, aggregate ⟨{}, numberedItems⟩ (.rootArray "a")
        ⟨"[0]", "[1]", none, some "[1] exists"⟩ = .ok r ∧
      Engine.stats ⟨{}, numberedItems⟩ (.rootArray "a") "[1]" none = .ok stats ∧
      (r.groups.map (·.elements)).sum = r.total ∧ (r.groups.map (·.count)).sum = stats.count ∧
      (r.groups.map (·.conditionCount)).sum = 2 := by
  have hpath : Path.parse "[0]" = .ok ⟨"[0]", [.index 0]⟩ :=
    Path.parse_of_scan (by decide) (by decide +kernel)
  have hmeets : (filter ⟨{}, numberedItems⟩ (some "[1] exists")).toOption.map (fun f =>
      (f.isEmpty, numberedElements.countP fun e => FilterSet.accepts {} e && f.accepts e)) =
        some (false, 2) := by decide +kernel
  cases hcountIf : filter ⟨{}, numberedItems⟩ (some "[1] exists") with
  | error e =>
    rw [hcountIf] at hmeets
    cases hmeets
  | ok countIf =>
    rw [hcountIf] at hmeets
    have hfilter : filter ⟨{}, numberedItems⟩ none = .ok {} := rfl
    obtain ⟨hgiven, htwo⟩ := Prod.mk.inj (Option.some.inj hmeets)
    obtain ⟨r, -, stats, hr, -, hstats, -, -, -, hsums⟩ := aggregate_partitions_elements
      ⟨{}, numberedItems⟩ (.rootArray "a") ⟨"[0]", "[1]", none, some "[1] exists"⟩ elements_numberedItems
      hpath parse_second hfilter hcountIf
    obtain ⟨hone, hcounts, hcondition⟩ := hsums rfl
    exact ⟨r, stats, hr, hstats, hone, hcounts, (hcondition hgiven).trans htwo⟩

end Engine

end EntityDump
