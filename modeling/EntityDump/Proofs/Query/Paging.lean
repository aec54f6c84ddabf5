import EntityDump.Proofs.Query.Agreement
import EntityDump.Proofs.Query.Fields
/-!
# Pages

A page is a window over the elements that pass the filter: behind an offset, and no longer than a limit. What
passes is counted whether the page shows it or not, so the numbers are the same for all pages
(`Engine.query_eq_ok`). Windows that begin where others end join to one, so pages of any sizes that follow one
another show what a single page of their total size shows (`Engine.query_pages`).
-/

namespace EntityDump

variable {projections : List Projection} {filter : FilterSet} {offset limit : Nat} {found : List Json}
  {s : PageState}

/-! ### Windows -/

/-- Another item is added to a window if it is not before the offset and there is room for it. -/
lemma take_drop_concat {α : Type} (items : List α) (item : α) (offset limit : Nat) :
    ((items ++ [item]).drop offset).take limit =
      if offset ≤ items.length ∧ ((items.drop offset).take limit).length < limit then
        (items.drop offset).take limit ++ [item]
      else (items.drop offset).take limit := by
  by_cases hoffset : offset ≤ items.length
  · rw [List.drop_append_of_le_length hoffset, List.take_append]
    by_cases hroom : (items.drop offset).length < limit
    · have hone : [item].take (limit - (items.drop offset).length) = [item] :=
        List.take_of_length_le (by rw [List.length_singleton]; omega)
      rw [List.take_of_length_le (Nat.le_of_lt hroom), hone, if_pos ⟨hoffset, hroom⟩]
    · have hfull : ((items.drop offset).take limit).length = limit := by
        rw [List.length_take]
        omega
      rw [Nat.sub_eq_zero_of_le (Nat.le_of_not_lt hroom), List.take_zero, List.append_nil, hfull,
        if_neg fun h => Nat.lt_irrefl _ h.2]
  · have hend : items.length + 1 ≤ offset := by omega
    rw [if_neg fun h => hoffset h.1, List.drop_of_length_le (by simpa using hend),
      List.drop_of_length_le (by omega)]

/-! ### Filling a page -/

/-- The page holds the window over the matches so far. -/
structure PageState.Holds (projections : List Projection) (offset limit : Nat) (found : List Json)
    (s : PageState) : Prop where
  items : s.reversed.reverse = ((found.drop offset).take limit).map (Projection.apply projections)
  length : s.length = ((found.drop offset).take limit).length
  matched : s.matched = found.length

/-- An element that passes is one more match, and no other is. -/
lemma PageState.Holds.step (h : s.Holds projections offset limit found) (filter : FilterSet)
    (element : Json) :
    (PageState.step projections filter offset limit s element).Holds projections offset limit
      (found ++ [element].filter filter.accepts) := by
  unfold PageState.step
  split
  · next haccepts =>
    rw [List.filter_cons_of_pos haccepts, List.filter_nil]
    have hwindow := take_drop_concat found element offset limit
    have hroom : (offset ≤ s.matched && s.length < limit) = true ↔
        offset ≤ found.length ∧ ((found.drop offset).take limit).length < limit := by
      rw [h.matched, h.length, Bool.and_eq_true, decide_eq_true_eq, decide_eq_true_eq]
    split
    · next hshown =>
      rw [if_pos (hroom.1 hshown)] at hwindow
      refine ⟨?_, ?_, ?_⟩
      · rw [List.reverse_cons, h.items, hwindow, List.map_append, List.map_singleton]
      · rw [hwindow, List.length_append, List.length_singleton, h.length]
      · rw [List.length_append, List.length_singleton, h.matched]
    · next hhidden =>
      rw [if_neg (mt hroom.2 hhidden)] at hwindow
      refine ⟨?_, ?_, ?_⟩
      · rw [hwindow, h.items]
      · rw [hwindow, h.length]
      · rw [List.length_append, List.length_singleton, h.matched]
  · next hrefused =>
    rw [List.filter_cons_of_neg hrefused, List.filter_nil, List.append_nil]
    exact ⟨h.items, h.length, h.matched⟩

/-- A page that is filled from a list of elements holds the window over those that pass. -/
lemma PageState.Holds.foldl (h : s.Holds projections offset limit found) (filter : FilterSet)
    (elements : List Json) :
    (elements.foldl (PageState.step projections filter offset limit) s).Holds projections offset limit
      (found ++ elements.filter filter.accepts) := by
  induction elements generalizing found s with
  | nil => simpa using h
  | cons element elements ih =>
    have hrest := ih (h.step filter element)
    rwa [List.append_assoc, ← List.filter_append] at hrest

lemma PageState.holds_nil (projections : List Projection) (offset limit : Nat) :
    Holds projections offset limit [] {} := by
  constructor <;> simp

/-! ### Pages -/

/-- Fields that can be read project all values. -/
lemma mapM_project {fields : List String} (h : Projection.parseAll fields = .ok projections)
    (values : List Json) :
    values.mapM (project · fields) = .ok (values.map (Projection.apply projections)) := by
  induction values with
  | nil => rfl
  | cons value values ih =>
    rw [List.mapM_cons, ih, project, h]
    rfl

/-- The options of pages of the given sizes, each of which begins where the one before ends. -/
def PageOptions.pages (options : PageOptions) : List Nat → List PageOptions
  | [] => []
  | size :: sizes =>
    { options with limit := some size } :: pages { options with offset := options.offset + size } sizes

namespace Engine

variable {engine : Engine} {source : Source} {elements : List Json}

/-- The page of a source that can be read. -/
lemma query_eq_ok (options : PageOptions)
    (helements : source.elements engine.config.stream engine.directory = .ok elements)
    (hselect : Projection.parseAll options.select = .ok projections)
    (hfilter : engine.filter options.filter = .ok filter) :
    engine.query source options = .ok
      ⟨(((elements.filter filter.accepts).drop options.offset).take
          (options.limit.getD engine.config.query.defaultLimit)).map (Projection.apply projections),
        (elements.filter filter.accepts).length, elements.length, filter.filterIgnored⟩ := by
  have hscanned := (PageState.counts filter projections options.offset
    (options.limit.getD engine.config.query.defaultLimit)).foldl elements {}
  have hpage := (PageState.holds_nil projections options.offset
    (options.limit.getD engine.config.query.defaultLimit)).foldl filter elements
  rw [List.nil_append] at hpage
  unfold query
  simp only [hselect, hfilter, scan_eq_ok helements, bind, Except.bind, pure, Except.pure, hpage.items,
    hpage.matched, hscanned.1, Nat.zero_add]

/-- Each page goes on where the one before ends. -/
lemma exists_pages (options : PageOptions)
    (helements : source.elements engine.config.stream engine.directory = .ok elements)
    (hselect : Projection.parseAll options.select = .ok projections)
    (hfilter : engine.filter options.filter = .ok filter) (sizes : List Nat) :
    ∃ pages, (options.pages sizes).mapM (engine.query source) = .ok pages ∧
      pages.flatMap (·.items) =
        (((elements.filter filter.accepts).drop options.offset).take (sizes.foldr (· + ·) 0)).map
          (Projection.apply projections) := by
  induction sizes generalizing options with
  | nil => exact ⟨[], rfl, by simp⟩
  | cons size sizes ih =>
    obtain ⟨page, hfirst, hpage⟩ : ∃ page, engine.query source { options with limit := some size } = .ok page ∧
        page.items = (((elements.filter filter.accepts).drop options.offset).take size).map
          (Projection.apply projections) :=
      ⟨_, query_eq_ok { options with limit := some size } helements hselect hfilter, rfl⟩
    obtain ⟨pages, hpages, hitems⟩ :=
      ih { options with offset := options.offset + size } hselect hfilter
    refine ⟨page :: pages, ?_, ?_⟩
    · rw [PageOptions.pages, List.mapM_cons, hfirst, hpages]
      rfl
    · rw [List.flatMap_cons, hpage, hitems, List.foldr_cons, List.take_add, List.drop_drop, List.map_append]

/-- A page shows the projections of the elements that pass, from the offset on and up to the limit, and reports all
of these elements. Pages of any sizes that follow one another show together what one page of their total size
shows; if it reaches the end, nothing of the rest is missing. -/
theorem query_pages (engine : Engine) (source : Source) (options : PageOptions)
    (helements : source.elements engine.config.stream engine.directory = .ok elements)
    (hselect : Projection.parseAll options.select = .ok projections)
    (hfilter : engine.filter options.filter = .ok filter) :
    let found := elements.filter filter.accepts
    (∃ r, engine.query source options = .ok r ∧
      ((found.drop options.offset).take (options.limit.getD engine.config.query.defaultLimit)).mapM
          (project · options.select) = .ok r.items ∧
        r.totalMatched = found.length ∧ r.totalScanned = elements.length) ∧
    ∀ sizes : List Nat, ∃ pages whole, (options.pages sizes).mapM (engine.query source) = .ok pages ∧
      engine.query source { options with limit := some (sizes.foldr (· + ·) 0) } = .ok whole ∧
      pages.flatMap (·.items) = whole.items ∧
      (found.length ≤ options.offset + sizes.foldr (· + ·) 0 →
        (found.drop options.offset).mapM (project · options.select) = .ok (pages.flatMap (·.items))) := by
  intro found
  have hquery := query_eq_ok options helements hselect hfilter
  refine ⟨⟨_, hquery, mapM_project hselect _, rfl, rfl⟩, fun sizes => ?_⟩
  obtain ⟨pages, hpages, hitems⟩ := exists_pages options helements hselect hfilter sizes
  have hwhole := query_eq_ok { options with limit := some (sizes.foldr (· + ·) 0) } helements hselect hfilter
  refine ⟨pages, _, hpages, hwhole, hitems, fun hreaches => ?_⟩
  have hall : (found.drop options.offset).take (sizes.foldr (· + ·) 0) = found.drop options.offset := by
    refine List.take_of_length_le ?_
    rw [List.length_drop]
    omega
  rw [mapM_project hselect, hitems, hall]

/-- Two pages of one item each, of the elements that have a first item, projected to it. -/
theorem query_pages_of_one :
    ∃ pages, ((⟨["[0]"], some "[0] exists", none, 0⟩ : PageOptions).pages [1, 1]).mapM
        (query ⟨{}, threeItems⟩ (.rootArray "a")) = .ok pages ∧
      pages.flatMap (·.items) = [.object [("[0]", .bool true)], .object [("[0]", .bool false)]] := by
  have hindex : Path.Selects ['0'] (.index 0) := Path.selects_index rfl (by decide)
  have hpath : Path.parse "[0]" = .ok ⟨"[0]", [.index 0]⟩ :=
    Path.parse_eq_ok_iff.2 ⟨.bracket hindex (.nil true), rfl⟩
  have hselect : Projection.parseAll ["[0]"] = .ok [⟨"[0]", ⟨"[0]", [.index 0]⟩, false⟩] := by
    have hfield : Projection.parse "[0]" = .ok ⟨"[0]", ⟨"[0]", [.index 0]⟩, false⟩ :=
      Projection.parse_of_path (by decide) (by decide) hpath
    rw [Projection.parseAll, List.mapM_cons, hfield]
    rfl
  have haccepts : (filter ⟨{}, threeItems⟩ (some "[0] exists")).toOption.map (fun f =>
      [Json.array [.bool true], .null, .array [.bool false]].map f.accepts) = some [true, false, true] := by
    decide +kernel
  cases hfilter : filter ⟨{}, threeItems⟩ (some "[0] exists") with
  | error e =>
    rw [hfilter] at haccepts
    cases haccepts
  | ok f =>
    rw [hfilter] at haccepts
    have hfound : [Json.array [.bool true], .null, .array [.bool false]].filter f.accepts =
        [.array [.bool true], .array [.bool false]] := by
      have haccepts := Option.some.inj haccepts
      simp only [List.map_cons, List.map_nil, List.cons.injEq] at haccepts
      simp [haccepts]
    obtain ⟨pages, whole, hpages, -, -, hall⟩ :=
      (query_pages ⟨{}, threeItems⟩ (.rootArray "a") ⟨["[0]"], some "[0] exists", none, 0⟩ elements_threeItems
        hselect hfilter).2 [1, 1]
    refine ⟨pages, hpages, ?_⟩
    rw [hfound, List.drop_zero, mapM_project hselect] at hall
    exact (Except.ok.inj (hall (by decide))).symm

end Engine

end EntityDump
