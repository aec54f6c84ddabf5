import EntityDump.Proofs.Join
import EntityDump.Query.Aggregate
import EntityDump.Query.Count
import EntityDump.Query.Histogram
import EntityDump.Query.Page
import EntityDump.Query.Sample
/-!
# Agreement of the questions

Every question about a source has a loop of its own, in which it counts the elements and those that its filter
accepts. A loop whose single step counts right counts right as a whole (`Counts.foldl`), so all questions report
the same numbers (`Engine.CountsAlike`). They also see nothing of a file but the elements of the source
(`Engine.AnswersAlike`). Both are said of any source that can be read in `answers_agree`.
-/

namespace EntityDump

open Json.Grammar (Derives IsBlank IsBlankByte)

/-! ### Loops that count -/

/-- A step counts every item that it takes, and apart from that the accepted ones. -/
structure Counts {σ ι : Type} (accepts : ι → Bool) (scanned matched : σ → Nat) (step : σ → ι → σ) :
    Prop where
  scanned_step : ∀ s item, scanned (step s item) = scanned s + 1
  matched_step : ∀ s item, matched (step s item) = matched s + if accepts item then 1 else 0

/-- A loop of steps that count has counted its items, and the accepted ones among them. -/
theorem Counts.foldl {σ ι : Type} {accepts : ι → Bool} {scanned matched : σ → Nat} {step : σ → ι → σ}
    (h : Counts accepts scanned matched step) (items : List ι) (s : σ) :
    scanned (items.foldl step s) = scanned s + items.length ∧
      matched (items.foldl step s) = matched s + items.countP accepts := by
  induction items generalizing s with
  | nil => exact ⟨rfl, rfl⟩
  | cons item items ih =>
    obtain ⟨hscanned, hmatched⟩ := ih (step s item)
    rw [List.foldl_cons, hscanned, hmatched, h.scanned_step, h.matched_step, List.length_cons,
      List.countP_cons]
    constructor <;> omega

section Steps

variable (filter : FilterSet)

/-- Counting counts what is scanned and what passes the filter. -/
lemma CountResult.counts : Counts filter.accepts scanned total (step filter) where
  scanned_step _ _ := rfl
  matched_step r element := by
    unfold step
    dsimp only
    split <;> rfl

/-- Grouping counts what is scanned and what passes the filter. -/
lemma GroupCounts.counts (path : Path) : Counts filter.accepts scanned total (step path filter) where
  scanned_step c element := by unfold step; split <;> rfl
  matched_step c element := by unfold step; split <;> rfl

/-- The numbers at a path are taken of accepted elements alone, but all elements are counted. -/
lemma PathNumbers.counts (path : Path) :
    Counts (fun _ => true) scanned scanned (step path filter) where
  scanned_step n element := by unfold step; split <;> rfl
  matched_step n element := by unfold step; split <;> rfl

/-- A match counts whether the page has room for it or not. -/
lemma PageState.counts (projections : List Projection) (offset limit : Nat) :
    Counts filter.accepts scanned matched (step projections filter offset limit) where
  scanned_step s element := by
    unfold step
    split
    · split <;> rfl
    · rfl
  matched_step s element := by
    unfold step
    split
    · split <;> rfl
    · rfl

/-- Aggregating counts what is scanned and what passes the filter. -/
lemma AggregateState.counts (groupPath valuePath : Path) (countIf : FilterSet) :
    Counts filter.accepts scanned total (step groupPath valuePath filter countIf) where
  scanned_step s element := by unfold step; split <;> rfl
  matched_step s element := by unfold step; split <;> rfl

/-- Without a path and a type what passes the filter is offered to the reservoir, which counts it also when it
is full. -/
lemma SampleState.counts (draws : Draws) :
    Counts (fun item : Json × Nat => filter.accepts item.1) scanned (fun s => s.reservoir.seen)
      (fun s item => step draws (sampleValue? none none filter) s item.2 item.1) where
  scanned_step _ _ := rfl
  matched_step s item := by
    unfold step sampleValue?
    cases haccepts : filter.accepts item.1 <;> simp [Reservoir.offer]

/-- An inventory counts what is scanned. -/
lemma Inventory.counts : Counts (fun _ => true) scanned scanned observe where
  scanned_step _ _ := rfl
  matched_step _ _ := rfl

end Steps

/-! ### What is reported -/

namespace Engine

/-- The questions about a source report the given number of elements, and those that have a filter also the
given number of accepted ones. Each of them is answered if its other arguments are valid. -/
structure CountsAlike (engine : Engine) (source : Source) (expression : Option String)
    (scanned matched : Nat) : Prop where
  count : ∃ r, engine.count source expression = .ok r ∧ r.scanned = scanned ∧ r.total = matched
  groupBy : ∀ text path, Path.parse text = .ok path →
    ∃ r, engine.groupBy source text expression = .ok r ∧ r.scanned = scanned ∧ r.total = matched
  /-- Statistics and a histogram of one path also count the same numbers there. -/
  numbers : ∀ text path buckets, Path.parse text = .ok path →
    buckets.getD engine.config.query.distributionBuckets ≠ 0 →
      ∃ s h, engine.stats source text expression = .ok s ∧
        engine.distribution source text expression buckets = .ok h ∧
        s.scanned = scanned ∧ h.scanned = scanned ∧ s.count = h.total
  query : ∀ (options : PageOptions) projections, options.filter = expression →
    Projection.parseAll options.select = .ok projections →
      ∃ r, engine.query source options = .ok r ∧ r.totalScanned = scanned ∧ r.totalMatched = matched
  aggregate : ∀ (options : AggregateOptions) groupPath valuePath countIf, options.filter = expression →
    Path.parse options.groupPath = .ok groupPath → Path.parse options.valuePath = .ok valuePath →
    engine.filter options.countIf = .ok countIf →
      ∃ r, engine.aggregate source options = .ok r ∧ r.scanned = scanned ∧ r.total = matched
  sample : ∀ draws (options : SampleOptions), options.filter = expression → options.path = none →
    options.entityType = none →
      ∃ r, engine.sample draws source options = .ok r ∧ r.totalScanned = scanned ∧
        r.matchedCount = matched
  relationships : ∀ right rights options,
    right.elements engine.config.stream engine.directory = .ok rights →
      ∃ r, engine.relationships source right options = .ok r ∧ r.leftScanned = scanned ∧
        r.rightScanned = rights.length
  /-- A join is not answered if no relationship is found for the keys that are missing. -/
  join : ∀ right rights options r, right.elements engine.config.stream engine.directory = .ok rights →
    engine.join source right options = .ok r → r.leftScanned = scanned ∧ r.rightScanned = rights.length
  /-- A join on given keys is answered if its other arguments are valid. -/
  joinOn : ∀ right rights (options : JoinOptions) filter select leftKey rightKey leftPath rightPath,
    right.elements engine.config.stream engine.directory = .ok rights →
    engine.pairFilter options.filter = .ok filter →
    options.select.mapM SideProjection.parse = .ok select →
    options.leftKey = some leftKey → options.rightKey = some rightKey →
    Path.parse leftKey = .ok leftPath → Path.parse rightKey = .ok rightPath →
      ∃ r, engine.join source right options = .ok r

/-- Two engines give the same answers about a source. In questions about two sources the one on the right must
have the same elements for both of them. -/
structure AnswersAlike (engine engine' : Engine) (source : Source) : Prop where
  count : ∀ expression, engine.count source expression = engine'.count source expression
  groupBy : ∀ path expression,
    engine.groupBy source path expression = engine'.groupBy source path expression
  stats : ∀ path expression, engine.stats source path expression = engine'.stats source path expression
  distribution : ∀ path expression buckets,
    engine.distribution source path expression buckets =
      engine'.distribution source path expression buckets
  query : ∀ options, engine.query source options = engine'.query source options
  aggregate : ∀ options, engine.aggregate source options = engine'.aggregate source options
  sample : ∀ draws options, engine.sample draws source options = engine'.sample draws source options
  relationships : ∀ (right : Source) options,
    right.elements engine.config.stream engine.directory =
      right.elements engine'.config.stream engine'.directory →
    engine.relationships source right options = engine'.relationships source right options
  join : ∀ (right : Source) options,
    right.elements engine.config.stream engine.directory =
      right.elements engine'.config.stream engine'.directory →
    engine.join source right options = engine'.join source right options

variable {engine : Engine} {source : Source} {elements : List Json}

/-- A scan of a source that can be read. -/
lemma scan_eq_ok {σ : Type} (h : source.elements engine.config.stream engine.directory = .ok elements)
    (step : σ → Json → σ) (init : σ) : engine.scan source step init = .ok (elements.foldl step init) := by
  rw [scan_eq_map_elements, h]
  rfl

/-- The numbers at a path are taken from all elements. -/
lemma exists_pathNumbers (h : source.elements engine.config.stream engine.directory = .ok elements)
    (path : Path) (filter : FilterSet) :
    ∃ n, engine.pathNumbers source path filter = .ok n ∧ n.scanned = elements.length := by
  refine ⟨_, scan_eq_ok h _ _, ?_⟩
  simpa using ((PathNumbers.counts filter path).foldl elements {}).1

/-- The id fields of a source are looked for in all elements. -/
lemma exists_idFields (h : source.elements engine.config.stream engine.directory = .ok elements) :
    ∃ inventory, engine.idFields source = .ok inventory ∧ inventory.scanned = elements.length := by
  refine ⟨_, scan_eq_ok h _ _, ?_⟩
  simpa using (Inventory.counts.foldl elements {}).1

/-- The right side of a join is indexed from its elements. -/
lemma rightIndex_eq_ok (h : source.elements engine.config.stream engine.directory = .ok elements)
    (path : Path) : engine.rightIndex source path = .ok (RightIndex.ofElements path elements) :=
  scan_eq_ok h _ _

/-! ### Agreement -/

section Counts

variable {expression : Option String} {filter : FilterSet}

/-- A question that samples whole elements offers the accepted ones to the reservoir. -/
lemma exists_sample (h : source.elements engine.config.stream engine.directory = .ok elements)
    (draws : Draws) (options : SampleOptions) (hfilter : engine.filter options.filter = .ok filter)
    (hpath : options.path = none) (htype : options.entityType = none) :
    ∃ r, engine.sample draws source options = .ok r ∧ r.totalScanned = elements.length ∧
      r.matchedCount = elements.countP filter.accepts := by
  obtain ⟨hscanned, hmatched⟩ := (SampleState.counts filter draws).foldl elements.zipIdx
    { reservoir := { capacity := options.count } }
  have hcount : (elements.zipIdx.countP fun item => filter.accepts item.1) =
      elements.countP filter.accepts := by
    calc (elements.zipIdx.countP fun item => filter.accepts item.1)
        = (elements.zipIdx.map Prod.fst).countP filter.accepts := by rw [List.countP_map]; rfl
      _ = elements.countP filter.accepts := by rw [List.zipIdx_map_fst]
  rw [hcount] at hmatched
  unfold sample
  simp only [hpath, htype, hfilter, Source.fold_eq_map_elements, h, foldIndexed, Option.mapM_none,
    Except.map, bind, Except.bind, pure, Except.pure]
  exact ⟨_, rfl, by simpa using hscanned, by simpa using hmatched⟩

/-- All questions about the elements of a source count them alike. -/
lemma countsAlike (h : source.elements engine.config.stream engine.directory = .ok elements)
    (hfilter : engine.filter expression = .ok filter) :
    engine.CountsAlike source expression elements.length (elements.countP filter.accepts) where
  count := by
    obtain ⟨hscanned, hmatched⟩ := (CountResult.counts filter).foldl elements
      { filterIgnored := filter.filterIgnored }
    unfold count
    simp only [hfilter, scan_eq_ok h, bind, Except.bind]
    exact ⟨_, rfl, by simpa using hscanned, by simpa using hmatched⟩
  groupBy text path hpath := by
    obtain ⟨hscanned, hmatched⟩ := (GroupCounts.counts filter path).foldl elements {}
    unfold groupBy
    simp only [hpath, hfilter, scan_eq_ok h, bind, Except.bind, pure, Except.pure]
    exact ⟨_, rfl, by simpa using hscanned, by simpa using hmatched⟩
  numbers text path buckets hpath hbuckets := by
    obtain ⟨n, hn, hscanned⟩ := exists_pathNumbers h path filter
    have hstats : ∃ s, engine.stats source text expression = .ok s ∧ s.scanned = n.scanned ∧
        s.count = n.accumulator.count := by
      unfold stats
      simp only [hpath, hfilter, hn, bind, Except.bind, pure, Except.pure]
      exact ⟨_, rfl, rfl, rfl⟩
    have hdistribution : ∃ h, engine.distribution source text expression buckets = .ok h ∧
        h.scanned = n.scanned ∧ h.total = n.accumulator.count := by
      unfold distribution
      simp only [hpath, hfilter, hn, scan_eq_ok h, if_neg hbuckets, bind, Except.bind, pure, Except.pure]
      split
      · exact ⟨_, rfl, rfl, rfl⟩
      · exact ⟨_, rfl, rfl, rfl⟩
    obtain ⟨s, hs, hsscanned, hcount⟩ := hstats
    obtain ⟨d, hd, hdscanned, htotal⟩ := hdistribution
    exact ⟨s, d, hs, hd, hsscanned.trans hscanned, hdscanned.trans hscanned, hcount.trans htotal.symm⟩
  query options projections hoptions hselect := by
    obtain ⟨hscanned, hmatched⟩ := (PageState.counts filter projections options.offset
      (options.limit.getD engine.config.query.defaultLimit)).foldl elements {}
    unfold query
    simp only [hoptions, hselect, hfilter, scan_eq_ok h, bind, Except.bind, pure, Except.pure]
    exact ⟨_, rfl, by simpa using hscanned, by simpa using hmatched⟩
  aggregate options groupPath valuePath countIf hoptions hgroup hvalue hcountIf := by
    obtain ⟨hscanned, hmatched⟩ :=
      (AggregateState.counts filter groupPath valuePath countIf).foldl elements {}
    unfold aggregate
    simp only [hoptions, hgroup, hvalue, hfilter, hcountIf, scan_eq_ok h, bind, Except.bind, pure,
      Except.pure]
    exact ⟨_, rfl, by simpa using hscanned, by simpa using hmatched⟩
  sample draws options hoptions := exists_sample h draws options (hoptions ▸ hfilter)
  relationships right rights options hright := by
    obtain ⟨leftFields, hleft, hleftScanned⟩ := exists_idFields h
    obtain ⟨rightFields, hright, hrightScanned⟩ := exists_idFields hright
    unfold relationships
    simp only [hleft, hright, bind, Except.bind, pure, Except.pure]
    exact ⟨_, rfl, hleftScanned, hrightScanned⟩
  join right rights options r hright hjoin := by
    unfold join at hjoin
    obtain ⟨filter, -, hjoin⟩ := exists_of_bind_eq_ok hjoin
    obtain ⟨select, -, hjoin⟩ := exists_of_bind_eq_ok hjoin
    obtain ⟨keys, -, hjoin⟩ := exists_of_bind_eq_ok hjoin
    obtain ⟨leftPath, -, hjoin⟩ := exists_of_bind_eq_ok hjoin
    obtain ⟨rightPath, -, hjoin⟩ := exists_of_bind_eq_ok hjoin
    have hindex := RightIndex.indexes_ofElements rightPath rights
    have hcollected := collected_foldl_step hindex leftPath filter select
      (options.limit.getD engine.config.query.defaultLimit) elements
    simp only [rightIndex_eq_ok hright, scan_eq_ok h, bind, Except.bind] at hjoin
    obtain rfl := Except.ok.inj hjoin
    exact ⟨hcollected.scanned, hindex.scanned⟩
  joinOn right rights options filter select leftKey rightKey leftPath rightPath hright hfilter hselect
      hleftKey hrightKey hleftPath hrightPath := by
    unfold join joinKeys
    simp only [hfilter, hselect, hleftKey, hrightKey, hleftPath, hrightPath, rightIndex_eq_ok hright,
      scan_eq_ok h, bind, Except.bind, pure, Except.pure]
    exact ⟨_, rfl⟩

end Counts

section Replacement

variable {directory : Directory}

/-- A scan sees nothing of the files but the elements of the source. -/
lemma scan_congr {source : Source}
    (h : source.elements engine.config.stream engine.directory =
      source.elements engine.config.stream directory) {σ : Type} (step : σ → Json → σ) (init : σ) :
    engine.scan source step init = scan { engine with directory := directory } source step init := by
  rw [scan_eq_map_elements, scan_eq_map_elements, h]

/-- Where a directory gives the same elements it gives the same answers. -/
lemma answersAlike
    (h : source.elements engine.config.stream engine.directory =
      source.elements engine.config.stream directory) :
    engine.AnswersAlike { engine with directory := directory } source where
  count expression := by unfold count; simp only [scan_congr h]; rfl
  groupBy path expression := by unfold groupBy; simp only [scan_congr h]; rfl
  stats path expression := by unfold stats pathNumbers; simp only [scan_congr h]; rfl
  distribution path expression buckets := by
    unfold distribution pathNumbers
    simp only [scan_congr h]
    rfl
  query options := by unfold query; simp only [scan_congr h]; rfl
  aggregate options := by unfold aggregate; simp only [scan_congr h]; rfl
  sample draws options := by unfold sample; simp only [Source.fold_eq_map_elements, h]; rfl
  relationships right options hright := by
    unfold relationships idFields
    simp only [scan_congr h, scan_congr hright]
  join right options hright := by
    unfold join joinKeys idFields rightIndex
    simp only [scan_congr h, scan_congr hright]
    rfl

end Replacement

/-- The questions about a source that can be read agree with one another: all count its elements, and those with
a filter the elements that it accepts. Every directory in which the source has the same elements gives the same
answers. -/
theorem answers_agree (engine : Engine) (source : Source) (elements : List Json)
    (expression : Option String) (filter : FilterSet)
    (helements : source.elements engine.config.stream engine.directory = .ok elements)
    (hfilter : engine.filter expression = .ok filter) :
    engine.CountsAlike source expression elements.length (elements.countP filter.accepts) ∧
      ∀ directory, source.elements engine.config.stream directory = .ok elements →
        engine.AnswersAlike { engine with directory := directory } source :=
  ⟨countsAlike helements hfilter, fun _ h => answersAlike (helements.trans h.symm)⟩

/-- A file with the text `[[true],null]`. -/
def twoItems : Directory :=
  ⟨[("a", [0x5b, 0x5b, 0x74, 0x72, 0x75, 0x65, 0x5d, 0x2c, 0x6e, 0x75, 0x6c, 0x6c, 0x5d])]⟩

/-- A file with the text `[[true] ,null]`. -/
def twoItemsApart : Directory :=
  ⟨[("a", [0x5b, 0x5b, 0x74, 0x72, 0x75, 0x65, 0x5d, 0x20, 0x2c, 0x6e, 0x75, 0x6c, 0x6c, 0x5d])]⟩

/-- Two items of which the filter accepts one, in files that differ by a blank. -/
theorem answers_agree_of_blank :
    (∃ r, count ⟨{}, twoItems⟩ (.rootArray "a") (some "[0] exists") = .ok r ∧ r.scanned = 2 ∧
      r.total = 1) ∧
    count ⟨{}, twoItems⟩ (.rootArray "a") (some "[0] exists") =
      count ⟨{}, twoItemsApart⟩ (.rootArray "a") (some "[0] exists") := by
  have hnone : IsBlank [] := by simp [IsBlank]
  have hblank : IsBlank [0x20] := by simp [IsBlank, IsBlankByte]
  have htrue : Derives [0x5b, 0x74, 0x72, 0x75, 0x65, 0x5d] (.value (.array [.scalar (.bool true)])) :=
    .array (.lastItem (.element hnone (.scalar .true) hnone))
  have hnull : Derives [0x6e, 0x75, 0x6c, 0x6c] (.element (.scalar .null)) :=
    .element hnone (.scalar .null) hnone
  have hitems : (Source.rootArray "a").elements {} twoItems = .ok [.array [.bool true], .null] :=
    Source.elements_of_isText (.rootArray "a") {} twoItems (by decide)
      (.element hnone (.array (.item (.element hnone htrue hnone) (.lastItem hnull))) hnone) (by decide)
  have hitemsApart : (Source.rootArray "a").elements {} twoItemsApart =
      .ok [.array [.bool true], .null] :=
    Source.elements_of_isText (.rootArray "a") {} twoItemsApart (by decide)
      (.element hnone (.array (.item (.element hnone htrue hblank) (.lastItem hnull))) hnone) (by decide)
  have hcount : (filter ⟨{}, twoItems⟩ (some "[0] exists")).toOption.map
      (fun f => [Json.array [.bool true], .null].countP f.accepts) = some 1 := by decide +kernel
  cases hfilter : filter ⟨{}, twoItems⟩ (some "[0] exists") with
  | error e =>
    rw [hfilter] at hcount
    cases hcount
  | ok f =>
    rw [hfilter] at hcount
    have hone : [Json.array [.bool true], .null].countP f.accepts = 1 := Option.some.inj hcount
    obtain ⟨hcounts, halike⟩ := answers_agree ⟨{}, twoItems⟩ (.rootArray "a") [.array [.bool true], .null]
      (some "[0] exists") f hitems hfilter
    obtain ⟨r, hr, hscanned, htotal⟩ := hcounts.count
    exact ⟨⟨r, hr, hscanned, htotal.trans hone⟩, (halike twoItemsApart hitemsApart).count _⟩

end Engine

end EntityDump
