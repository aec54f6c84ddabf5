import EntityDump.Proofs.Filter.Conjunction
import EntityDump.Proofs.Query.Groups
/-!
# Strict and permissive filters

Strict filters are refused at the first text that is no condition; permissive ones leave such texts out and go on.
What strict reading gives can be told from what permissive reading gives (`FilterSet.strictly`). This goes through a
list of texts, as putting sets together respects it (`FilterSet.strictly_append`). So an answer under strict
filters is the answer under permissive ones as well, and no text was left out for it (`Engine.KeepsStrictAnswers`).
-/

namespace EntityDump

/-! ### Reading filters -/

namespace FilterSet

variable (twoSided : Bool)

/-- What strict reading gives where permissive reading gives the set: the error for the first text that was left
out, or the set. -/
def strictly (set : FilterSet) : Except Error FilterSet :=
  match set.ignored with
  | [] => .ok set
  | text :: _ => .error (.invalidFilter text)

/-- A set without ignored texts is what strict reading gives. -/
lemma strictly_of_ignored_eq_nil {set : FilterSet} (h : set.ignored = []) : set.strictly = .ok set := by
  rw [strictly, h]

/-- The first text that is ignored is the error of strict reading. -/
lemma strictly_of_ignored_eq_cons {set : FilterSet} {text : String} {rest : List String}
    (h : set.ignored = text :: rest) : set.strictly = .error (.invalidFilter text) := by
  rw [strictly, h]

/-- Strict reading gives a set exactly if no text is ignored. -/
lemma strictly_eq_ok_iff {set strictSet : FilterSet} :
    set.strictly = .ok strictSet ↔ set.ignored = [] ∧ strictSet = set := by
  cases h : set.ignored with
  | nil => rw [strictly_of_ignored_eq_nil h, Except.ok.injEq, eq_comm, and_iff_right rfl]
  | cons text rest => simp [strictly_of_ignored_eq_cons h]

/-- The texts that the first of two sets left out come first. -/
lemma strictly_append (first second : FilterSet) :
    (append first second).strictly = first.strictly.bind fun first => second.strictly.map (append first) := by
  cases hfirst : first.ignored with
  | cons text rest =>
    have happend : (append first second).ignored = text :: (rest ++ second.ignored) := by simp [append, hfirst]
    rw [strictly_of_ignored_eq_cons hfirst, strictly_of_ignored_eq_cons happend]
    rfl
  | nil =>
    have happend : (append first second).ignored = second.ignored := by simp [append, hfirst]
    rw [strictly_of_ignored_eq_nil hfirst]
    cases hsecond : second.ignored with
    | nil =>
      rw [strictly_of_ignored_eq_nil hsecond, strictly_of_ignored_eq_nil (happend.trans hsecond)]
      rfl
    | cons text rest =>
      rw [strictly_of_ignored_eq_cons hsecond, strictly_of_ignored_eq_cons (happend.trans hsecond)]
      rfl

/-- A part that is neither blank nor a condition is left out or refused under the same text. -/
lemma exists_addPart (part : List Char) :
    ∃ added, addPart false twoSided {} part = .ok added ∧ addPart true twoSided {} part = added.strictly := by
  unfold addPart resolve
  by_cases hblank : (Text.trim part).isEmpty = true
  · rw [if_pos hblank, if_pos hblank]
    exact ⟨_, rfl, rfl⟩
  · rw [if_neg hblank, if_neg hblank]
    cases Condition.parseChars? twoSided part with
    | some c => exact ⟨_, rfl, rfl⟩
    | none => exact ⟨_, rfl, rfl⟩

/-- Permissive reading of parts does not fail, and strict reading of them is what the set says. -/
lemma exists_foldlM_addPart (parts : List (List Char)) :
    ∃ set, parts.foldlM (addPart false twoSided) {} = .ok set ∧
      parts.foldlM (addPart true twoSided) {} = set.strictly := by
  induction parts with
  | nil => exact ⟨{}, rfl, rfl⟩
  | cons part parts ih =>
    obtain ⟨added, hpermissive, hstrict⟩ := exists_addPart twoSided part
    obtain ⟨rest, hrest, hrest'⟩ := ih
    refine ⟨append added rest, ?_, ?_⟩
    · rw [List.foldlM_cons, hpermissive]
      show parts.foldlM (addPart false twoSided) added = _
      rw [foldlM_addPart, hrest]
      rfl
    · have hparts : parts.foldlM (addPart true twoSided) =
          fun set => rest.strictly.map (append set) := by
        funext set
        rw [foldlM_addPart, hrest']
      rw [List.foldlM_cons, hstrict, strictly_append, hparts]
      rfl

/-- Permissive reading always gives a set, and strict reading gives what the set tells. -/
lemma exists_parse (expressions : List String) :
    ∃ set, parse false twoSided expressions = .ok set ∧ parse true twoSided expressions = set.strictly :=
  exists_foldlM_addPart twoSided _

end FilterSet

namespace Engine

/-- The same engine with filters that are strict, or with permissive ones. -/
def withStrictFilters (engine : Engine) (strict : Bool) : Engine :=
  { engine with
    config := { engine.config with query := { engine.config.query with strictFilters := strict } } }

/-! ### Putting steps together -/

/-- What the first gives is what the second gives, and it tells of no filter text that was left out. -/
def KeepsAnswer {α : Type} (filterIgnored : α → Bool) (strict permissive : Except Error α) : Prop :=
  ∀ result, strict = .ok result → permissive = .ok result ∧ filterIgnored result = false

section Steps

variable {α β : Type} {filterIgnored : β → Bool}

/-- An argument that is read alike makes no difference. -/
lemma KeepsAnswer.bind {argument : Except Error α} {next next' : α → Except Error β}
    (h : ∀ a, KeepsAnswer filterIgnored (next a) (next' a)) :
    KeepsAnswer filterIgnored (argument >>= next) (argument >>= next') := by
  intro result hresult
  obtain ⟨a, rfl, hnext⟩ := exists_of_bind_eq_ok hresult
  exact h a result hnext

/-- A filter that is read strictly is read alike permissively. -/
lemma KeepsAnswer.bind_parse {twoSided : Bool} {expressions : List String}
    {next next' : FilterSet → Except Error β}
    (h : ∀ filter : FilterSet, filter.filterIgnored = false →
      KeepsAnswer filterIgnored (next filter) (next' filter)) :
    KeepsAnswer filterIgnored (FilterSet.parse true twoSided expressions >>= next)
      (FilterSet.parse false twoSided expressions >>= next') := by
  intro result hresult
  obtain ⟨filter, hfilter, hnext⟩ := exists_of_bind_eq_ok hresult
  obtain ⟨set, hpermissive, hstrict⟩ := FilterSet.exists_parse twoSided expressions
  obtain ⟨hignored, rfl⟩ := FilterSet.strictly_eq_ok_iff.1 (hstrict.symm.trans hfilter)
  have hnone : filter.filterIgnored = false := by
    rw [FilterSet.filterIgnored, hignored, List.isEmpty_nil, Bool.not_true]
  rw [hpermissive]
  exact h filter hnone result hnext

/-- The same test has the same outcome. -/
lemma KeepsAnswer.ite {c : Prop} [Decidable c] {strict permissive strict' permissive' : Except Error β}
    (h : c → KeepsAnswer filterIgnored strict permissive)
    (h' : ¬ c → KeepsAnswer filterIgnored strict' permissive') :
    KeepsAnswer filterIgnored (if c then strict else strict') (if c then permissive else permissive') := by
  split
  · next hc => exact h hc
  · next hc => exact h' hc

/-- A strict error promises nothing. -/
lemma KeepsAnswer.error {e : Error} {permissive : Except Error β} :
    KeepsAnswer filterIgnored (.error e) permissive :=
  nofun

/-- An answer is kept if it tells of no filter text that was left out. -/
lemma KeepsAnswer.ok {answer : β} (h : filterIgnored answer = false) :
    KeepsAnswer filterIgnored (.ok answer) (.ok answer) := by
  intro result hresult
  obtain rfl := Except.ok.inj hresult
  exact ⟨rfl, h⟩

end Steps

/-! ### The questions -/

/-- What strict filters give as an answer about a source is what permissive ones give, in all questions that take a
filter. -/
structure KeepsStrictAnswers (engine : Engine) (source : Source) : Prop where
  count : ∀ expression, KeepsAnswer CountResult.filterIgnored
    ((engine.withStrictFilters true).count source expression)
    ((engine.withStrictFilters false).count source expression)
  groupBy : ∀ path expression, KeepsAnswer GroupResult.filterIgnored
    ((engine.withStrictFilters true).groupBy source path expression)
    ((engine.withStrictFilters false).groupBy source path expression)
  stats : ∀ path expression, KeepsAnswer StatsResult.filterIgnored
    ((engine.withStrictFilters true).stats source path expression)
    ((engine.withStrictFilters false).stats source path expression)
  distribution : ∀ path expression buckets, KeepsAnswer HistogramResult.filterIgnored
    ((engine.withStrictFilters true).distribution source path expression buckets)
    ((engine.withStrictFilters false).distribution source path expression buckets)
  query : ∀ options, KeepsAnswer PageResult.filterIgnored
    ((engine.withStrictFilters true).query source options)
    ((engine.withStrictFilters false).query source options)
  /-- Both filters count, the one for the elements and the one for the condition. -/
  aggregate : ∀ options, KeepsAnswer AggregateResult.filterIgnored
    ((engine.withStrictFilters true).aggregate source options)
    ((engine.withStrictFilters false).aggregate source options)
  sample : ∀ draws options, KeepsAnswer SampleResult.filterIgnored
    ((engine.withStrictFilters true).sample draws source options)
    ((engine.withStrictFilters false).sample draws source options)
  join : ∀ right options, KeepsAnswer JoinResult.filterIgnored
    ((engine.withStrictFilters true).join source right options)
    ((engine.withStrictFilters false).join source right options)

variable {engine : Engine} {source : Source}

/-- Counting leaves it as it is whether a filter text was left out. -/
lemma filterIgnored_foldl (filter : FilterSet) (elements : List Json) (r : CountResult) :
    (elements.foldl (CountResult.step filter) r).filterIgnored = r.filterIgnored := by
  induction elements generalizing r with
  | nil => rfl
  | cons element elements ih => exact ih (CountResult.step filter r element)

/-- A count with strict filters is the one with permissive ones. -/
lemma keepsAnswer_count (engine : Engine) (source : Source) (expression : Option String) :
    KeepsAnswer CountResult.filterIgnored ((engine.withStrictFilters true).count source expression)
      ((engine.withStrictFilters false).count source expression) := by
  refine KeepsAnswer.bind_parse fun filter hfilter => ?_
  have hscan : ∀ strict, scan (engine.withStrictFilters strict) source (CountResult.step filter)
      { filterIgnored := filter.filterIgnored } = (source.elements engine.config.stream engine.directory).map
        fun elements => elements.foldl (CountResult.step filter) { filterIgnored := filter.filterIgnored } :=
    fun strict => scan_eq_map_elements _ _ _ _
  rw [hscan, hscan]
  cases source.elements engine.config.stream engine.directory with
  | error e => exact KeepsAnswer.error
  | ok elements => exact KeepsAnswer.ok ((filterIgnored_foldl filter elements _).trans hfilter)

/-- Answers with strict filters are those with permissive ones, in all questions that take a filter. -/
lemma keepsStrictAnswers (engine : Engine) (source : Source) : engine.KeepsStrictAnswers source where
  count := keepsAnswer_count engine source
  groupBy path expression := by
    refine KeepsAnswer.bind fun path => KeepsAnswer.bind_parse fun filter hfilter => ?_
    exact KeepsAnswer.bind fun counts => KeepsAnswer.ok hfilter
  stats path expression := by
    refine KeepsAnswer.bind fun path => KeepsAnswer.bind_parse fun filter hfilter => ?_
    exact KeepsAnswer.bind fun numbers => KeepsAnswer.ok hfilter
  distribution path expression buckets := by
    refine KeepsAnswer.ite (fun _ => KeepsAnswer.error) fun _ => ?_
    refine KeepsAnswer.bind fun path => KeepsAnswer.bind_parse fun filter hfilter => ?_
    refine KeepsAnswer.bind fun numbers => KeepsAnswer.ite (fun _ => KeepsAnswer.ok hfilter) fun _ => ?_
    exact KeepsAnswer.bind fun counts => KeepsAnswer.ok hfilter
  query options := by
    refine KeepsAnswer.bind fun projections => KeepsAnswer.bind_parse fun filter hfilter => ?_
    exact KeepsAnswer.bind fun s => KeepsAnswer.ok hfilter
  aggregate options := by
    refine KeepsAnswer.bind fun groupPath => KeepsAnswer.bind fun valuePath => ?_
    refine KeepsAnswer.bind_parse fun filter hfilter => KeepsAnswer.bind_parse fun countIf hcountIf => ?_
    exact KeepsAnswer.bind fun s => KeepsAnswer.ok (Bool.or_eq_false_iff.2 ⟨hfilter, hcountIf⟩)
  sample draws options := by
    refine KeepsAnswer.bind fun path => KeepsAnswer.bind_parse fun filter hfilter => ?_
    exact KeepsAnswer.bind fun s => KeepsAnswer.ok hfilter
  join right options := by
    refine KeepsAnswer.bind_parse fun filter hfilter => KeepsAnswer.bind fun select => ?_
    refine KeepsAnswer.bind fun keys => KeepsAnswer.bind fun leftPath => KeepsAnswer.bind fun rightPath => ?_
    refine KeepsAnswer.bind fun index => ?_
    exact KeepsAnswer.bind fun s => KeepsAnswer.ok hfilter

/-- Permissive reading of filters always succeeds. Strict reading succeeds if nothing was left out, and then with the
same set; otherwise it is refused for the first text that was left out. So for every source an answer under strict
filters is the answer under permissive ones, for which no text was left out. -/
theorem strict_permissive_agree (engine : Engine) (source : Source) (twoSided : Bool)
    (expressions : List String) :
    (∃ set, FilterSet.parse false twoSided expressions = .ok set ∧
      (∀ strictSet, FilterSet.parse true twoSided expressions = .ok strictSet ↔
        set.ignored = [] ∧ strictSet = set) ∧
      ∀ text rest, set.ignored = text :: rest →
        FilterSet.parse true twoSided expressions = .error (.invalidFilter text)) ∧
    engine.KeepsStrictAnswers source := by
  obtain ⟨set, hpermissive, hstrict⟩ := FilterSet.exists_parse twoSided expressions
  refine ⟨⟨set, hpermissive, ?_, ?_⟩, keepsStrictAnswers engine source⟩
  · intro strictSet
    rw [hstrict]
    exact FilterSet.strictly_eq_ok_iff
  · intro text rest hignored
    rw [hstrict, FilterSet.strictly_of_ignored_eq_cons hignored]

/-- Of three parts the second and the third are no conditions. A count that strict filters give is the one that
permissive filters give. -/
theorem strict_permissive_agree_of_numberedItems :
    FilterSet.parse true false ["a = 1 && b", " c "] = .error (.invalidFilter "b") ∧
    ∃ r, count (withStrictFilters ⟨{}, numberedItems⟩ true) (.rootArray "a") (some "[0] exists") = .ok r ∧
      count (withStrictFilters ⟨{}, numberedItems⟩ false) (.rootArray "a") (some "[0] exists") = .ok r ∧
      r.scanned = 2 ∧ r.filterIgnored = false := by
  obtain ⟨⟨set, hset, -, hrefused⟩, hkeeps⟩ := strict_permissive_agree ⟨{}, numberedItems⟩ (.rootArray "a") false
    ["a = 1 && b", " c "]
  have hignored : (FilterSet.parse false false ["a = 1 && b", " c "]).toOption.map FilterSet.ignored =
      some ["b", "c"] := by decide +kernel
  rw [hset] at hignored
  have hfilter : (filter (withStrictFilters ⟨{}, numberedItems⟩ true) (some "[0] exists")).toOption.isSome =
      true := by decide +kernel
  refine ⟨hrefused "b" ["c"] (Option.some.inj hignored), ?_⟩
  cases hread : filter (withStrictFilters ⟨{}, numberedItems⟩ true) (some "[0] exists") with
  | error e =>
    rw [hread] at hfilter
    contradiction
  | ok f =>
    have hcounts : CountsAlike _ (.rootArray "a") _ 2 _ := countsAlike elements_numberedItems hread
    obtain ⟨r, hr, hscanned, -⟩ := hcounts.count
    obtain ⟨hpermissive, hnone⟩ := hkeeps.count _ r hr
    exact ⟨r, hr, hpermissive, hscanned, hnone⟩

end Engine

end EntityDump
