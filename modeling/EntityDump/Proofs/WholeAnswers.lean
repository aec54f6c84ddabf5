import EntityDump.Proofs.Shape.Inference
import EntityDump.Proofs.Tokenizer.Recognition
import EntityDump.Proofs.Elements
import EntityDump.Query.Aggregate
import EntityDump.Query.Count
import EntityDump.Query.Histogram
import EntityDump.Query.Page
import EntityDump.Query.Sample
import EntityDump.Query.Schema
/-!
# Answers from whole documents

A question about one source is refused for its arguments before a file is opened, and otherwise answered
from the whole document or not at all: a fault anywhere in the file is reported as a tokenizer reports it
(`Engine.AnswersWhole`). A scan has this property by itself (`Engine.answersWhole_scan`), it stays when an
argument is read first (`AnswersWhole.bind_argument`), and when what comes behind does not fail on a
well-formed file (`AnswersWhole.bind`).
-/

namespace EntityDump

open Json (Event Document)
open Json.Grammar

/-! ### Refusals -/

/-- The error, if there is one. -/
def refusal? {α : Type} : Except Error α → Option Error
  | .error e => some e
  | .ok _ => none

/-- The error is about an argument. Filters that cannot be read are one only where filters are strict. -/
structure Engine.Refuses (engine : Engine) (e : Error) : Prop where
  kind : e.kind = .invalidInput
  strict : ∀ text, e = .invalidFilter text → engine.config.query.strictFilters = true

/-- How a question about a file is answered. The first of its refusals counts, whatever file there is.
Without one the file is opened; if it is no JSON text the fault is that of a tokenizer over all its bytes;
and if it is one, an answer is given. -/
structure Engine.AnswersWhole {α : Type} (engine : Engine) (path : String) (refusals : List (Option Error))
    (answer : Except Error α) : Prop where
  refused : ∀ e, refusals.findSome? id = some e → engine.Refuses e ∧ answer = .error e
  missing : refusals.findSome? id = none → engine.directory.open? path = none →
    answer = .error (.missingFile path)
  malformed : refusals.findSome? id = none → ∀ bytes, engine.directory.open? path = some bytes →
    bytes.length ≤ engine.config.stream.maxTokenBytes → (¬ ∃ d, IsText bytes d) →
      ∃ e, ((Tokenizer.limited engine.config.stream.maxTokenBytes).follow [.feed bytes]).2 = .error e ∧
        answer = .error (.malformed path e)
  answered : refusals.findSome? id = none → ∀ bytes d, engine.directory.open? path = some bytes →
    bytes.length ≤ engine.config.stream.maxTokenBytes → IsText bytes d → ∃ result, answer = .ok result

namespace Engine

variable {α β σ : Type} {engine : Engine} {path : String} {refusals : List (Option Error)}

/-! ### Putting steps together -/

/-- An answer is given if the file is a JSON text. -/
def AnswersText (engine : Engine) (path : String) (answer : Except Error α) : Prop :=
  ∀ bytes d, engine.directory.open? path = some bytes →
    bytes.length ≤ engine.config.stream.maxTokenBytes → IsText bytes d → ∃ result, answer = .ok result

/-- A result that is there is an answer for every text. -/
lemma answersText_ok (result : α) : engine.AnswersText path (.ok result) :=
  fun _ _ _ _ _ => ⟨result, rfl⟩

/-- A question without refusals is answered on every JSON text. -/
lemma AnswersWhole.answersText {answer : Except Error α} (h : engine.AnswersWhole path [] answer) :
    engine.AnswersText path answer :=
  h.answered rfl

/-- What comes behind does not fail on a JSON text. -/
lemma AnswersWhole.bind {answer : Except Error α} {next : α → Except Error β}
    (h : engine.AnswersWhole path refusals answer)
    (hnext : ∀ a, answer = .ok a → engine.AnswersText path (next a)) :
    engine.AnswersWhole path refusals (answer >>= next) where
  refused := by
    intro e he
    obtain ⟨hrefuses, heq⟩ := h.refused e he
    rw [heq]
    exact ⟨hrefuses, rfl⟩
  missing := by
    intro hnone hopen
    rw [h.missing hnone hopen]
    rfl
  malformed := by
    intro hnone bytes hopen hlength htext
    obtain ⟨e, hstop, heq⟩ := h.malformed hnone bytes hopen hlength htext
    rw [heq]
    exact ⟨e, hstop, rfl⟩
  answered := by
    intro hnone bytes d hopen hlength htext
    obtain ⟨a, ha⟩ := h.answered hnone bytes d hopen hlength htext
    rw [ha]
    exact hnext a ha bytes d hopen hlength htext

/-- An argument that is read first is refused first. -/
lemma AnswersWhole.bind_argument {argument : Except Error α} {next : α → Except Error β}
    (hrefuses : ∀ e, argument = .error e → engine.Refuses e)
    (hnext : ∀ a, argument = .ok a → engine.AnswersWhole path refusals (next a)) :
    engine.AnswersWhole path (refusal? argument :: refusals) (argument >>= next) := by
  cases argument with
  | error e =>
    refine ⟨?_, nofun, nofun, nofun⟩
    intro e' he'
    obtain rfl : e = e' := Option.some.inj he'
    exact ⟨hrefuses e rfl, rfl⟩
  | ok a =>
    have h := hnext a rfl
    exact ⟨h.refused, h.missing, h.malformed, h.answered⟩

/-- Only the first refusal counts. -/
lemma AnswersWhole.congr {refusals' : List (Option Error)} {answer : Except Error α}
    (hsame : refusals.findSome? id = refusals'.findSome? id)
    (h : engine.AnswersWhole path refusals answer) : engine.AnswersWhole path refusals' answer := by
  obtain ⟨hrefused, hmissing, hmalformed, hanswered⟩ := h
  rw [hsame] at hrefused hmissing hmalformed hanswered
  exact ⟨hrefused, hmissing, hmalformed, hanswered⟩

/-! ### Reading the file -/

/-- A file that is opened is folded as a tokenizer with all its bytes at hand goes on and ends. -/
lemma foldFile_eq_complete (step : σ → Event → σ) (s : σ) {bytes : List UInt8}
    (hopen : engine.directory.open? path = some bytes)
    (hlength : bytes.length ≤ engine.config.stream.maxTokenBytes) :
    ∃ r, Reading.foldFile (fun s e _ => step s e) engine.config.stream engine.directory path s =
      match ((Tokenizer.limited engine.config.stream.maxTokenBytes).complete bytes).outcome with
      | (_, .error e) => .error (.malformed path e)
      | (events, _) => .ok (events.foldl step s, r) := by
  obtain ⟨hstate, hend⟩ := Reading.foldBytes_eq_complete step engine.config.stream bytes s hlength
  rw [Reading.foldFile, hopen]
  dsimp only
  generalize Reading.foldBytes (fun s e _ => step s e) engine.config.stream bytes s = result at hstate hend
  generalize ((Tokenizer.limited engine.config.stream.maxTokenBytes).complete bytes).outcome = outcome
    at hstate hend
  obtain ⟨s', r, ending⟩ := result
  obtain ⟨events, stop⟩ := outcome
  obtain rfl : s' = events.foldl step s := hstate
  obtain rfl : ending = Reading.outcomeOf stop := hend
  cases stop with
  | needMore => exact ⟨r, rfl⟩
  | finished => exact ⟨r, rfl⟩
  | error e => exact ⟨r, rfl⟩

/-- The events of a JSON text are folded. -/
lemma foldFile_of_isText (step : σ → Event → σ) (s : σ) {bytes : List UInt8} {d : Document}
    (hopen : engine.directory.open? path = some bytes)
    (hlength : bytes.length ≤ engine.config.stream.maxTokenBytes) (htext : IsText bytes d) :
    ∃ r, Reading.foldFile (fun s e _ => step s e) engine.config.stream engine.directory path s =
      .ok (d.events.foldl step s, r) := by
  obtain ⟨r, hfold⟩ := foldFile_eq_complete step s hopen hlength
  rw [Tokenizer.outcome_of_isText htext] at hfold
  exact ⟨r, hfold⟩

/-- A fold over the events of a file reads all of it. -/
lemma answersWhole_foldFile (engine : Engine) (path : String) (step : σ → Event → σ) (s : σ) :
    engine.AnswersWhole path []
      (Reading.foldFile (fun s e _ => step s e) engine.config.stream engine.directory path s) where
  refused := nofun
  missing := by
    intro _ hopen
    rw [Reading.foldFile, hopen]
  malformed := by
    intro _ bytes hopen hlength htext
    have hfed : Tokenizer.fed [.feed bytes] = bytes := List.append_nil bytes
    have hfollow := Tokenizer.follow_eq_complete (Tokenizer.limited engine.config.stream.maxTokenBytes)
      [.feed bytes] (Tokenizer.awaits_limited (hfed.symm ▸ hlength))
    obtain ⟨r, hfold⟩ := foldFile_eq_complete step s hopen hlength
    rw [hfed] at hfollow
    rw [hfollow, hfold]
    -- With its whole text at hand a tokenizer finishes or fails, and it finishes on texts of the grammar only.
    rcases Tokenizer.outcome_of_ended
      ((Tokenizer.limited engine.config.stream.maxTokenBytes).complete bytes) rfl with hfinished | ⟨e, he⟩
    · exact absurd (Tokenizer.isText_of_finishes hfinished) htext
    · refine ⟨e, he, ?_⟩
      generalize ((Tokenizer.limited engine.config.stream.maxTokenBytes).complete bytes).outcome = outcome
        at he
      obtain ⟨events, stop⟩ := outcome
      obtain rfl : stop = .error e := he
      rfl
  answered := by
    intro _ bytes d hopen hlength htext
    obtain ⟨r, hfold⟩ := foldFile_of_isText step s hopen hlength htext
    exact ⟨_, hfold⟩

/-- A fold over the elements of a source reads its whole file. -/
lemma answersWhole_fold (engine : Engine) (source : Source) (step : σ → Nat → Json → σ) (init : σ) :
    engine.AnswersWhole source.path []
      (source.fold engine.config.stream engine.directory step init) := by
  rw [Source.fold, extractionStep_eq_take]
  have hfile := answersWhole_foldFile engine source.path (Extraction.take source.subPathKeys step)
    ({ state := init } : Extraction σ)
  exact hfile.bind fun a _ => answersText_ok _

/-- A scan of a source reads its whole file. -/
lemma answersWhole_scan (engine : Engine) (source : Source) (step : σ → Json → σ) (init : σ) :
    engine.AnswersWhole source.path [] (engine.scan source step init) :=
  answersWhole_fold engine source (fun state _ element => step state element) init

/-! ### Arguments -/

/-- A path that cannot be read is refused, strict or not. -/
lemma refuses_of_path {expression : String} {e : Error} (h : Path.parse expression = .error e) :
    engine.Refuses e := by
  unfold Path.parse at h
  dsimp only at h
  split at h
  · cases h
  · obtain rfl := Except.error.inj h
    exact ⟨rfl, nofun⟩

/-- A filter text is refused only where filters are strict. -/
lemma exists_of_addPart_eq_error {strict twoSided : Bool} {set : FilterSet} {part : List Char} {e : Error}
    (h : set.addPart strict twoSided part = .error e) : strict = true ∧ ∃ text, e = .invalidFilter text := by
  unfold FilterSet.addPart at h
  split at h
  · cases h
  · unfold FilterSet.resolve at h
    split at h
    · cases h
    · split at h
      · next hstrict => exact ⟨hstrict, _, (Except.error.inj h).symm⟩
      · cases h

/-- Filter texts are refused only where filters are strict. -/
lemma exists_of_parse_eq_error {strict twoSided : Bool} {expressions : List String} {e : Error}
    (h : FilterSet.parse strict twoSided expressions = .error e) :
    strict = true ∧ ∃ text, e = .invalidFilter text := by
  have hparse : ∀ (parts : List (List Char)) (set : FilterSet),
      parts.foldlM (FilterSet.addPart strict twoSided) set = .error e →
      strict = true ∧ ∃ text, e = .invalidFilter text := by
    intro parts
    induction parts with
    | nil => nofun
    | cons part parts ih =>
      intro set hfold
      rw [List.foldlM_cons] at hfold
      cases hadd : set.addPart strict twoSided part with
      | error e' =>
        rw [hadd] at hfold
        obtain rfl : e' = e := Except.error.inj hfold
        exact exists_of_addPart_eq_error hadd
      | ok set' =>
        rw [hadd] at hfold
        exact ih set' hfold
  exact hparse _ _ h

/-- The error of a filter text is a refusal. -/
lemma refuses_of_filter {expression : Option String} {e : Error} (h : engine.filter expression = .error e) :
    engine.Refuses e := by
  obtain ⟨hstrict, text, rfl⟩ := exists_of_parse_eq_error h
  exact ⟨rfl, fun _ _ => hstrict⟩

/-- A field to select whose path cannot be read is refused. -/
lemma refuses_of_field {field : String} {e : Error} (h : Projection.parse field = .error e) :
    engine.Refuses e := by
  -- with or without the length, what is left of the field is read as a path
  have hpath : ∀ (text : String) (projection : Path → Projection),
      (Path.parse text >>= fun path => pure (projection path)) = .error e → engine.Refuses e := by
    intro text projection h
    cases hparse : Path.parse text with
    | error e' =>
      rw [hparse] at h
      obtain rfl : e' = e := Except.error.inj h
      exact refuses_of_path hparse
    | ok path =>
      rw [hparse] at h
      cases h
  unfold Projection.parse at h
  dsimp only at h
  cases hlength : Text.dropEnd? lengthSuffix (Text.trim field.toList) with
  | none =>
    rw [hlength] at h
    exact hpath _ _ h
  | some base =>
    rw [hlength] at h
    exact hpath _ _ h

/-- An argument is refused with the error of reading it. -/
lemma refusal?_eq_some_iff {argument : Except Error α} {e : Error} :
    refusal? argument = some e ↔ argument = .error e := by
  cases argument <;> simp [refusal?]

/-- Of several arguments that are read in order the first that is refused counts. -/
lemma refusal?_mapM (read : α → Except Error β) (arguments : List α) :
    refusal? (arguments.mapM read) = (arguments.map fun a => refusal? (read a)).findSome? id := by
  induction arguments with
  | nil => rfl
  | cons a arguments ih =>
    rw [List.mapM_cons, List.map_cons, List.findSome?_cons, ← ih]
    cases read a with
    | error e => rfl
    | ok b =>
      show refusal? (Except.bind _ _) = refusal? (arguments.mapM read)
      cases arguments.mapM read with
      | error e => rfl
      | ok bs => rfl

/-! ### The questions -/

section Questions

variable (engine : Engine) (source : Source)

/-- Counting is refused for its filter alone. -/
lemma answersWhole_count (filter : Option String) :
    engine.AnswersWhole source.path [refusal? (engine.filter filter)] (engine.count source filter) :=
  AnswersWhole.bind_argument (fun _ h => refuses_of_filter h) fun _ _ => answersWhole_scan engine source _ _

/-- Grouping is refused for its path before its filter. -/
lemma answersWhole_groupBy (path : String) (filter : Option String) :
    engine.AnswersWhole source.path [refusal? (Path.parse path), refusal? (engine.filter filter)]
      (engine.groupBy source path filter) := by
  refine AnswersWhole.bind_argument (fun _ h => refuses_of_path h) fun path _ => ?_
  refine AnswersWhole.bind_argument (fun _ h => refuses_of_filter h) fun filter _ => ?_
  exact (answersWhole_scan engine source _ _).bind fun _ _ => answersText_ok _

/-- Statistics are refused for their path before their filter. -/
lemma answersWhole_stats (path : String) (filter : Option String) :
    engine.AnswersWhole source.path [refusal? (Path.parse path), refusal? (engine.filter filter)]
      (engine.stats source path filter) := by
  refine AnswersWhole.bind_argument (fun _ h => refuses_of_path h) fun path _ => ?_
  refine AnswersWhole.bind_argument (fun _ h => refuses_of_filter h) fun filter _ => ?_
  exact (answersWhole_scan engine source _ _).bind fun _ _ => answersText_ok _

/-- The refusal of a histogram without buckets. -/
def bucketRefusal? (buckets : Option Nat) : Option Error :=
  if buckets.getD engine.config.query.distributionBuckets = 0 then some (.invalidArgument .noBuckets)
  else none

/-- A histogram is refused for its number of buckets, then for its path and its filter. -/
lemma answersWhole_distribution (path : String) (filter : Option String) (buckets : Option Nat) :
    engine.AnswersWhole source.path
      [engine.bucketRefusal? buckets, refusal? (Path.parse path), refusal? (engine.filter filter)]
      (engine.distribution source path filter buckets) := by
  unfold distribution bucketRefusal?
  dsimp only
  split
  · refine ⟨?_, nofun, nofun, nofun⟩
    intro e he
    obtain rfl := Option.some.inj he
    exact ⟨⟨rfl, nofun⟩, rfl⟩
  · have hsame : [refusal? (Path.parse path), refusal? (engine.filter filter)].findSome? id =
        [none, refusal? (Path.parse path), refusal? (engine.filter filter)].findSome? id := rfl
    refine AnswersWhole.congr hsame ?_
    refine AnswersWhole.bind_argument (fun _ h => refuses_of_path h) fun path _ => ?_
    refine AnswersWhole.bind_argument (fun _ h => refuses_of_filter h) fun filter _ => ?_
    refine (answersWhole_scan engine source _ _).bind fun numbers _ => ?_
    split
    · exact answersText_ok _
    -- the second pass reads the same file
    · exact ((answersWhole_scan engine source _ _).bind fun _ _ => answersText_ok _).answersText

/-- A page is refused for the first of its fields that cannot be read, then for its filter. -/
lemma answersWhole_query (options : PageOptions) :
    engine.AnswersWhole source.path
      (options.select.map (fun field => refusal? (Projection.parse field)) ++
        [refusal? (engine.filter options.filter)])
      (engine.query source options) := by
  have hfields : ∀ e, Projection.parseAll options.select = .error e → engine.Refuses e := by
    intro e he
    have hfirst := refusal?_eq_some_iff.2 he
    rw [Projection.parseAll, refusal?_mapM] at hfirst
    obtain ⟨refusal, hmem, rfl⟩ := List.exists_of_findSome?_eq_some hfirst
    obtain ⟨field, -, hfield⟩ := List.mem_map.1 hmem
    exact refuses_of_field (refusal?_eq_some_iff.1 hfield)
  have hsame : (refusal? (Projection.parseAll options.select) ::
        [refusal? (engine.filter options.filter)]).findSome? id =
      (options.select.map (fun field => refusal? (Projection.parse field)) ++
        [refusal? (engine.filter options.filter)]).findSome? id := by
    rw [List.findSome?_append, ← refusal?_mapM, Projection.parseAll]
    cases refusal? (options.select.mapM Projection.parse) <;> rfl
  refine AnswersWhole.congr hsame ?_
  refine AnswersWhole.bind_argument hfields fun projections _ => ?_
  refine AnswersWhole.bind_argument (fun _ h => refuses_of_filter h) fun filter _ => ?_
  exact (answersWhole_scan engine source _ _).bind fun _ _ => answersText_ok _

/-- Aggregates are refused for their two paths and then for their two filters, in the order in which these are read.
-/
lemma answersWhole_aggregate (options : AggregateOptions) :
    engine.AnswersWhole source.path
      [refusal? (Path.parse options.groupPath), refusal? (Path.parse options.valuePath),
        refusal? (engine.filter options.filter), refusal? (engine.filter options.countIf)]
      (engine.aggregate source options) := by
  refine AnswersWhole.bind_argument (fun _ h => refuses_of_path h) fun groupPath _ => ?_
  refine AnswersWhole.bind_argument (fun _ h => refuses_of_path h) fun valuePath _ => ?_
  refine AnswersWhole.bind_argument (fun _ h => refuses_of_filter h) fun filter _ => ?_
  refine AnswersWhole.bind_argument (fun _ h => refuses_of_filter h) fun countIf _ => ?_
  exact (answersWhole_scan engine source _ _).bind fun _ _ => answersText_ok _

/-- A sample is refused for its path, if it has one, and then for its filter. -/
lemma answersWhole_sample (draws : Draws) (options : SampleOptions) :
    engine.AnswersWhole source.path
      [options.path.bind fun path => refusal? (Path.parse path), refusal? (engine.filter options.filter)]
      (engine.sample draws source options) := by
  have hpath : refusal? (options.path.mapM Path.parse) =
      options.path.bind fun path => refusal? (Path.parse path) := by
    cases options.path with
    | none => rfl
    | some path =>
      show refusal? (some <$> Path.parse path) = refusal? (Path.parse path)
      cases Path.parse path <;> rfl
  have hrefuses : ∀ e, options.path.mapM Path.parse = .error e → engine.Refuses e := by
    intro e he
    rw [← refusal?_eq_some_iff, hpath] at he
    obtain ⟨path, -, he⟩ := Option.bind_eq_some_iff.1 he
    exact refuses_of_path (refusal?_eq_some_iff.1 he)
  rw [← hpath]
  refine AnswersWhole.bind_argument hrefuses fun path _ => ?_
  refine AnswersWhole.bind_argument (fun _ h => refuses_of_filter h) fun filter _ => ?_
  exact (answersWhole_fold engine source _ _).bind fun _ _ => answersText_ok _

/-- A shape is refused for nothing: its file is read as a whole, or the fault reported. -/
lemma answersWhole_schema (path : String) (options : ShapeOptions) :
    engine.AnswersWhole path [] (engine.schema path options) := by
  unfold schema
  refine (answersWhole_foldFile engine path ShapeBuilder.push _).bind fun result hresult => ?_
  intro bytes d hopen hlength htext
  obtain ⟨r, hfold⟩ := foldFile_of_isText ShapeBuilder.push { options := options } hopen hlength htext
  have hroot : (d.events.foldl ShapeBuilder.push { options := options }).root =
      some (d.shape options 0) := by
    have hpush := ShapeBuilder.pushAll_of_open (b := { options := options }) d rfl rfl
    exact congrArg ShapeBuilder.root hpush
  obtain rfl : _ = result := Except.ok.inj (hfold.symm.trans hresult)
  exact ⟨_, by dsimp only; rw [hroot]; rfl⟩

end Questions

/-- Every question about a single source is refused for the first of its arguments that is invalid, in the
order in which it reads them and whatever file there is; otherwise it is answered from the whole file, or
not at all. -/
theorem answers_whole (engine : Engine) (source : Source) :
    (∀ filter, engine.AnswersWhole source.path [refusal? (engine.filter filter)]
      (engine.count source filter)) ∧
    (∀ path filter, engine.AnswersWhole source.path
      [refusal? (Path.parse path), refusal? (engine.filter filter)]
      (engine.groupBy source path filter)) ∧
    (∀ path filter, engine.AnswersWhole source.path
      [refusal? (Path.parse path), refusal? (engine.filter filter)]
      (engine.stats source path filter)) ∧
    (∀ path filter buckets, engine.AnswersWhole source.path
      [engine.bucketRefusal? buckets, refusal? (Path.parse path), refusal? (engine.filter filter)]
      (engine.distribution source path filter buckets)) ∧
    (∀ options : PageOptions, engine.AnswersWhole source.path
      (options.select.map (fun field => refusal? (Projection.parse field)) ++
        [refusal? (engine.filter options.filter)])
      (engine.query source options)) ∧
    (∀ options : AggregateOptions, engine.AnswersWhole source.path
      [refusal? (Path.parse options.groupPath), refusal? (Path.parse options.valuePath),
        refusal? (engine.filter options.filter), refusal? (engine.filter options.countIf)]
      (engine.aggregate source options)) ∧
    (∀ draws (options : SampleOptions), engine.AnswersWhole source.path
      [options.path.bind fun path => refusal? (Path.parse path), refusal? (engine.filter options.filter)]
      (engine.sample draws source options)) ∧
    ∀ options, engine.AnswersWhole source.path [] (engine.schema source.path options) :=
  ⟨answersWhole_count engine source, answersWhole_groupBy engine source, answersWhole_stats engine source,
    answersWhole_distribution engine source, answersWhole_query engine source,
    answersWhole_aggregate engine source, answersWhole_sample engine source,
    answersWhole_schema engine source.path⟩

end Engine

end EntityDump
