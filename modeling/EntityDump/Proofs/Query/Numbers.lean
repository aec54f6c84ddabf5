import EntityDump.Proofs.Query.Groups
/-!
# Numbers at a path

Statistics and histograms are about the finite numbers that a path selects in the elements that pass a filter
(`numbersAt`). One pass takes each of them into an accumulator (`Engine.pathNumbers_eq_ok`). A histogram makes a
second pass and puts each into a slot. Whatever the arithmetic of doubles makes of the range and the width, a slot
is one of those there are, and every slot counts the numbers that go there (`Slots.Holds.foldl`). So nothing is
lost or counted twice: `Engine.distribution_counts_numbers`.
-/

namespace EntityDump

/-- The finite numbers that a path selects in elements, in order. -/
def numbersAt (path : Path) (elements : List Json) : List Float :=
  elements.flatMap fun element => (path.select element).filterMap Accumulator.numberOf?

/-- The numbers of a single element are those among the values that the path selects. -/
lemma numbersAt_singleton (path : Path) (element : Json) :
    numbersAt path [element] = (path.select element).filterMap Accumulator.numberOf? :=
  List.flatMap_singleton ..

/-! ### Accumulators -/

namespace Accumulator

variable {a : Accumulator Float}

/-- Of several values the finite numbers are added. -/
lemma updateValues_eq (a : Accumulator Float) (values : List Json) :
    a.updateValues values = (values.filterMap numberOf?).foldl add a := by
  unfold updateValues
  induction values generalizing a with
  | nil => rfl
  | cons value values ih =>
    rw [List.foldl_cons, ih, updateValue, List.filterMap_cons]
    cases numberOf? value with
    | none => rfl
    | some x => rfl

/-- Every number that is added counts once, and none of them as a match of the condition. -/
lemma counts_foldl_add (a : Accumulator Float) (numbers : List Float) :
    (numbers.foldl add a).count = a.count + numbers.length ∧
      (numbers.foldl add a).conditionCount = a.conditionCount := by
  induction numbers generalizing a with
  | nil => exact ⟨rfl, rfl⟩
  | cons x numbers ih =>
    obtain ⟨hcount, hcondition⟩ := ih (a.add x)
    have hone : (a.add x).count = a.count + 1 := rfl
    rw [List.foldl_cons, hcount, hcondition, List.length_cons, hone]
    exact ⟨by omega, rfl⟩

end Accumulator

/-! ### Statistics -/

/-- The accumulator takes the numbers of an element that passes, and of no other. -/
lemma PathNumbers.accumulator_step (path : Path) (filter : FilterSet) (n : PathNumbers) (element : Json) :
    (step path filter n element).accumulator =
      if filter.accepts element then
        ((path.select element).filterMap Accumulator.numberOf?).foldl .add n.accumulator
      else n.accumulator := by
  unfold step
  split
  · exact Accumulator.updateValues_eq n.accumulator (path.select element)
  · rfl

/-- The accumulator takes the numbers of the elements that pass. -/
lemma PathNumbers.accumulator_foldl_step (path : Path) (filter : FilterSet) (elements : List Json)
    (n : PathNumbers) :
    (elements.foldl (step path filter) n).accumulator =
      (numbersAt path (elements.filter filter.accepts)).foldl .add n.accumulator := by
  rw [numbersAt, List.foldl_flatMap]
  exact foldl_eq_foldl_filter accumulator _ (accumulator_step path filter) elements n

namespace Engine

variable {engine : Engine} {source : Source} {elements : List Json}

/-- The numbers at a path of a source that can be read. -/
lemma pathNumbers_eq_ok (h : source.elements engine.config.stream engine.directory = .ok elements)
    (path : Path) (filter : FilterSet) :
    engine.pathNumbers source path filter = .ok
      ⟨(numbersAt path (elements.filter filter.accepts)).foldl .add .empty, elements.length⟩ := by
  have hscanned := ((PathNumbers.counts filter path).foldl elements {}).1
  have hnumbers := PathNumbers.accumulator_foldl_step path filter elements {}
  rw [pathNumbers, scan_eq_ok h]
  generalize elements.foldl (PathNumbers.step path filter) {} = n at hscanned hnumbers
  obtain ⟨accumulator, scanned⟩ := n
  obtain rfl : accumulator = _ := hnumbers
  obtain rfl : scanned = elements.length := by simpa using hscanned
  rfl

variable {text : String} {path : Path} {expression : Option String} {filter : FilterSet}

/-- Statistics count the numbers at the path of the elements that pass. -/
lemma exists_stats (helements : source.elements engine.config.stream engine.directory = .ok elements)
    (hpath : Path.parse text = .ok path) (hfilter : engine.filter expression = .ok filter) :
    ∃ r, engine.stats source text expression = .ok r ∧
      r.count = (numbersAt path (elements.filter filter.accepts)).length ∧ r.scanned = elements.length := by
  have hcount := (Accumulator.counts_foldl_add .empty
    (numbersAt path (elements.filter filter.accepts))).1
  unfold stats
  simp only [hpath, hfilter, pathNumbers_eq_ok helements, bind, Except.bind, pure, Except.pure]
  exact ⟨_, rfl, by rw [hcount]; exact Nat.zero_add _, rfl⟩

end Engine

/-! ### Slots -/

namespace Slots

variable {slots : Slots} {counts : List Nat} {numbers : List Float}

/-- There is a count for every slot, which is how many of the numbers go there. -/
structure Holds (slots : Slots) (counts : List Nat) (numbers : List Float) : Prop where
  length_eq : counts.length = slots.size
  getElem?_eq : ∀ index < slots.size, counts[index]? = some (numbers.countP (slots.slot · = index))

/-- Before the first number all counts are zero. -/
lemma holds_replicate (slots : Slots) : slots.Holds (List.replicate slots.size 0) [] where
  length_eq := List.length_replicate
  getElem?_eq index hindex := by rw [List.getElem?_replicate, if_pos hindex, List.countP_nil]

/-- One more number goes into its slot and changes no other. -/
lemma Holds.bump (h : slots.Holds counts numbers) (x : Float) :
    slots.Holds (slots.bump counts x) (numbers ++ [x]) where
  length_eq := by rw [Slots.bump, List.length_modify, h.length_eq]
  getElem?_eq index hindex := by
    rw [Slots.bump, List.getElem?_modify, h.getElem?_eq index hindex, List.countP_append,
      List.countP_singleton]
    by_cases hslot : slots.slot x = index
    · simp [hslot]
    · simp [hslot]

/-- The numbers of a list go into their slots. -/
lemma Holds.foldl (h : slots.Holds counts numbers) (more : List Float) :
    slots.Holds (more.foldl slots.bump counts) (numbers ++ more) := by
  induction more generalizing counts numbers with
  | nil => rwa [List.append_nil]
  | cons x more ih =>
    have hrest := ih (h.bump x)
    rwa [List.append_assoc, List.singleton_append] at hrest

/-- The numbers of the elements that pass go into their slots. -/
lemma Holds.foldl_step (h : slots.Holds counts numbers) (path : Path) (filter : FilterSet)
    (elements : List Json) :
    slots.Holds (elements.foldl (slots.step path filter) counts)
      (numbers ++ numbersAt path (elements.filter filter.accepts)) := by
  have hfold : elements.foldl (slots.step path filter) counts =
      (numbersAt path (elements.filter filter.accepts)).foldl slots.bump counts := by
    rw [numbersAt, List.foldl_flatMap, List.foldl_filter]
    rfl
  rw [hfold]
  exact h.foldl _

/-- Slot by slot, the counts are those of the numbers that go there. -/
lemma Holds.eq_map_range (h : slots.Holds counts numbers) :
    counts = (List.range slots.size).map fun index => numbers.countP (slots.slot · = index) := by
  apply List.ext_getElem?
  intro index
  by_cases hindex : index < slots.size
  · rw [h.getElem?_eq index hindex, List.getElem?_map, List.getElem?_range hindex, Option.map_some]
  · rw [List.getElem?_eq_none (by rw [h.length_eq]; omega),
      List.getElem?_eq_none (by rw [List.length_map, List.length_range]; omega)]

/-- The counts of the slots add up to the number of numbers. -/
lemma Holds.sum_counts (h : slots.Holds counts numbers) (hsize : 0 < slots.size) :
    counts.sum = numbers.length := by
  have hcount : ∀ index, numbers.countP (slots.slot · = index) =
      ((numbers.filter (slots.slot · = index)).map fun _ => 1).sum := by
    intro index
    simp [List.countP_eq_length_filter]
  have hslot : ∀ x ∈ numbers, slots.slot x ∈ List.range slots.size := fun x _ =>
    List.mem_range.2 (slots.slot_lt x hsize)
  rw [h.eq_map_range]
  simp only [hcount]
  rw [sum_map_filter_eq List.nodup_range hslot]
  simp

/-- There is a bucket for each slot, with its index and its count. -/
lemma buckets_eq (slots : Slots) (total : ℕ) (counts : List ℕ) :
    (counts.mapIdx fun index count => slots.bucket total index count).map (·.index) =
        List.range counts.length ∧
      (counts.mapIdx fun index count => slots.bucket total index count).map (·.count) = counts := by
  rw [List.mapIdx_eq_zipIdx_map, List.map_map, List.map_map]
  constructor
  · calc _ = counts.zipIdx.map Prod.snd := rfl
      _ = List.range counts.length := by rw [List.zipIdx_map_snd, List.range_eq_range']
  · exact List.zipIdx_map_fst 0 counts

end Slots

/-! ### Histograms -/

namespace Engine

variable {engine : Engine} {source : Source} {elements : List Json} {text : String} {path : Path}
  {expression : Option String} {filter : FilterSet}

/-- The histogram of a source that can be read. -/
lemma distribution_eq_ok (buckets : Option ℕ)
    (helements : source.elements engine.config.stream engine.directory = .ok elements)
    (hpath : Path.parse text = .ok path) (hfilter : engine.filter expression = .ok filter)
    (hbuckets : 1 ≤ buckets.getD engine.config.query.distributionBuckets) :
    let size := buckets.getD engine.config.query.distributionBuckets
    let numbers := numbersAt path (elements.filter filter.accepts)
    let range := numbers.foldl .add Accumulator.empty
    let slots := Slots.ofRange range.min range.max size
    engine.distribution source text expression buckets = .ok
      ⟨if numbers = [] then [] else
          (elements.foldl (slots.step path filter) (List.replicate size 0)).mapIdx fun index count =>
            slots.bucket numbers.length index count,
        numbers.length, range.min, range.max, elements.length, filter.filterIgnored⟩ := by
  intro size numbers range slots
  have hcount : range.count = numbers.length := by
    rw [(Accumulator.counts_foldl_add .empty numbers).1]
    exact Nat.zero_add _
  have hempty : range.isEmpty = true ↔ numbers = [] := by
    rw [Accumulator.isEmpty, hcount, beq_iff_eq, List.length_eq_zero_iff]
  unfold distribution
  simp only [if_neg (Nat.ne_of_gt hbuckets), hpath, hfilter, pathNumbers_eq_ok helements,
    scan_eq_ok helements, bind, Except.bind, pure, Except.pure]
  by_cases hnumbers : numbers = []
  · rw [if_pos hnumbers, if_pos (hempty.2 hnumbers), hcount]
  · rw [if_neg hnumbers, if_neg (mt hempty.1 hnumbers), hcount]

/-- A histogram of no numbers has no buckets. Otherwise it has the buckets of as many slots as were asked for, each
with the count of the numbers that go there. A slot is one of those there are, whatever the least number and the
width of the slots are. The counts add up to the number of numbers, which is also that of the statistics. -/
theorem distribution_counts_numbers (engine : Engine) (source : Source) (text : String)
    (expression : Option String) (buckets : Option ℕ)
    (helements : source.elements engine.config.stream engine.directory = .ok elements)
    (hpath : Path.parse text = .ok path) (hfilter : engine.filter expression = .ok filter)
    (hbuckets : 1 ≤ buckets.getD engine.config.query.distributionBuckets) :
    let size := buckets.getD engine.config.query.distributionBuckets
    let numbers := numbersAt path (elements.filter filter.accepts)
    (∀ start width x : Float, (⟨start, width, size⟩ : Slots).slot x < size) ∧
    ∃ r s, engine.distribution source text expression buckets = .ok r ∧
      engine.stats source text expression = .ok s ∧
      (numbers = [] → r.buckets = []) ∧
      (numbers ≠ [] → r.buckets.map (·.index) = List.range size ∧
        r.buckets.map (·.count) = (List.range size).map fun index =>
          numbers.countP ((Slots.ofRange r.min r.max size).slot · = index)) ∧
      (r.buckets.map (·.count)).sum = r.total ∧ r.total = s.count ∧ s.count = numbers.length := by
  intro size numbers
  obtain ⟨s, hstats, hcount, -⟩ := exists_stats helements hpath hfilter
  refine ⟨fun start width x => Slots.slot_lt ⟨start, width, size⟩ x hbuckets, _, s,
    distribution_eq_ok buckets helements hpath hfilter hbuckets, hstats, ?_⟩
  -- The slots are made from the range that a first pass finds, and a second pass counts into them.
  set range := numbers.foldl .add Accumulator.empty
  have hslots := (Slots.holds_replicate (.ofRange range.min range.max size)).foldl_step path filter elements
  rw [List.nil_append] at hslots
  obtain ⟨hindices, hcounts⟩ := Slots.buckets_eq (.ofRange range.min range.max size) numbers.length _
  refine ⟨fun hnumbers => if_pos hnumbers, ?_, ?_, hcount.symm, hcount⟩
  · intro hnumbers
    rw [if_neg hnumbers]
    exact ⟨hindices.trans (congrArg List.range hslots.length_eq), hcounts.trans hslots.eq_map_range⟩
  · by_cases hnumbers : numbers = []
    · rw [if_pos hnumbers]
      exact (congrArg List.length hnumbers).symm
    · rw [if_neg hnumbers]
      exact (congrArg List.sum hcounts).trans (hslots.sum_counts hbuckets)

/-- The path `[1]`. -/
lemma parse_second : Path.parse "[1]" = .ok ⟨"[1]", [.index 1]⟩ :=
  Path.parse_of_scan (by decide) (by decide +kernel)

/-- Two numbers in two slots. -/
theorem distribution_counts_numbers_of_two :
    ∃ r s, distribution ⟨{}, numberedItems⟩ (.rootArray "a") "[1]" none (some 2) = .ok r ∧
      stats ⟨{}, numberedItems⟩ (.rootArray "a") "[1]" none = .ok s ∧
      r.buckets.map (·.index) = [0, 1] ∧ (r.buckets.map (·.count)).sum = 2 ∧ s.count = 2 := by
  have hfilter : filter ⟨{}, numberedItems⟩ none = .ok {} := rfl
  obtain ⟨-, r, s, hr, hs, -, hbuckets, hsum, htotal, hcount⟩ := distribution_counts_numbers
    ⟨{}, numberedItems⟩ (.rootArray "a") "[1]" none (some 2) elements_numberedItems parse_second hfilter
    (by decide)
  have htwo : (numbersAt ⟨"[1]", [.index 1]⟩ (numberedElements.filter (FilterSet.accepts {}))).length = 2 := by
    decide +kernel
  have hindices := (hbuckets fun hnil => by rw [hnil] at htwo; cases htwo).1
  rw [htwo] at hcount
  exact ⟨r, s, hr, hs, hindices, hsum.trans (htotal.trans hcount), hcount⟩

end Engine

end EntityDump
