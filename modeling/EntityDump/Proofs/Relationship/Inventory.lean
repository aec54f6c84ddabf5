import EntityDump.Proofs.Relationship.Findings
import EntityDump.Relationship.Inventory
import Mathlib
/-!
# What an inventory holds

An inventory gathers, under the text of each path, the values found there (`holds_ofElements`). What a field gathers
(`IdField.Gathers`) is said without the order of the values: which ones they are, how many, and the pattern that all
of them have. So is what is reported of it (`IdField.Gathers.reports`, `mem_summaries_iff`), and the summaries of an
inventory are the same for every order of the elements (`Holds.summaries_eq`).

Together with where values are found (`Finding.findings_eq`) this tells the fields of an inventory by the scalars
of the elements alone: `Inventory.ofElements_gathers_scalars`.
-/

namespace EntityDump

/-! ### Fields -/

/-- What is reported of values found at a path: how many there are, with and without repetitions, the pattern that all
of them have, and the first of them as examples. -/
structure IdFieldSummary.Reports (s : IdFieldSummary) (found : List String) (maxExamples : ℕ) : Prop where
  distinctValues_eq : s.distinctValues = found.toFinset.card
  occurrences_eq : s.occurrences = found.length
  pattern_iff : ∀ p, s.pattern = some p ↔ ∀ value ∈ found, Pattern.detect? value = some p
  examples_eq : s.examples = found.toFinset.sort.take maxExamples

/-- Of values found at a path one thing is reported. -/
lemma IdFieldSummary.Reports.unique {s s' : IdFieldSummary} {found : List String} {maxExamples : ℕ}
    (h : s.Reports found maxExamples) (h' : s'.Reports found maxExamples) (hpath : s.path = s'.path) : s = s' := by
  obtain ⟨path, distinctValues, occurrences, pattern, examples⟩ := s
  obtain ⟨path', distinctValues', occurrences', pattern', examples'⟩ := s'
  obtain rfl : path = path' := hpath
  obtain rfl : distinctValues = distinctValues' := h.distinctValues_eq.trans h'.distinctValues_eq.symm
  obtain rfl : occurrences = occurrences' := h.occurrences_eq.trans h'.occurrences_eq.symm
  obtain rfl : pattern = pattern' := Option.ext fun p => (h.pattern_iff p).trans (h'.pattern_iff p).symm
  obtain rfl : examples = examples' := h.examples_eq.trans h'.examples_eq.symm
  rfl

namespace IdField

variable {field other : IdField} {path : String} {found found' : List String}

/-- A field holds no value twice. -/
lemma nodup_values (field : IdField) : field.values.toList.Nodup := by
  refine Std.TreeSet.distinct_toList.imp fun hne heq => hne ?_
  rw [heq]
  exact Std.ReflCmp.compare_self

/-- The field has a path and gathers the values found there. If there are any, its pattern is the one that all of
them have. -/
structure Gathers (field : IdField) (path : String) (found : List String) : Prop where
  path_eq : field.path = path
  mem_iff : ∀ value, value ∈ field.values ↔ value ∈ found
  occurrences_eq : field.occurrences = found.length
  pattern_iff : found ≠ [] →
    ∀ p, field.pattern = some p ↔ ∀ value ∈ found, Pattern.detect? value = some p

lemma gathers_nil (path : String) (wildcard : Bool) : Gathers ⟨path, wildcard, {}, 0, none⟩ path [] where
  path_eq := rfl
  mem_iff value := by simp
  occurrences_eq := rfl
  pattern_iff h := absurd rfl h

/-- A field holds the value that is recorded beside those that it has. -/
lemma mem_values_record {value v : String} : v ∈ (field.record value).values ↔ value = v ∨ v ∈ field.values := by
  simp [IdField.record, Std.TreeSet.mem_insert]

/-- A field that records a value gathers it last. -/
lemma Gathers.record (h : field.Gathers path found) (value : String) :
    (field.record value).Gathers path (found ++ [value]) where
  path_eq := h.path_eq
  mem_iff v := by rw [mem_values_record, h.mem_iff, List.mem_append, List.mem_singleton, or_comm, eq_comm]
  occurrences_eq := by
    rw [List.length_append, ← h.occurrences_eq]
    rfl
  pattern_iff := by
    intro _ p
    simp only [List.forall_mem_append, List.forall_mem_singleton]
    change (if field.occurrences = 0 then Pattern.detect? value
      else if field.pattern = Pattern.detect? value then Pattern.detect? value else none) = some p ↔ _
    have hzero : field.occurrences = 0 ↔ found = [] := by rw [h.occurrences_eq, List.length_eq_zero_iff]
    by_cases hfound : found = []
    · rw [if_pos (hzero.2 hfound)]
      simp [hfound]
    · -- Once two values differ there is no pattern, and a value without a pattern leaves none either.
      rw [if_neg (mt hzero.1 hfound), ← h.pattern_iff hfound p]
      split
      · next heq => simp [heq]
      · next hne =>
        constructor
        · intro hnone
          cases hnone
        · rintro ⟨hpattern, hvalue⟩
          exact absurd (hpattern.trans hvalue.symm) hne

/-- The order of the values does not matter. -/
lemma Gathers.perm (h : field.Gathers path found) (hperm : found.Perm found') : field.Gathers path found' where
  path_eq := h.path_eq
  mem_iff value := by rw [h.mem_iff, hperm.mem_iff]
  occurrences_eq := by rw [h.occurrences_eq, hperm.length_eq]
  pattern_iff := by
    intro hne p
    have hfound : found ≠ [] := fun hnil => hne (hnil ▸ hperm).nil_eq.symm
    rw [h.pattern_iff hfound]
    exact forall_congr' fun value => imp_congr_left hperm.mem_iff

/-- The values of a field stand in ascending order. -/
lemma Gathers.toList_values (h : field.Gathers path found) : field.values.toList = found.toFinset.sort := by
  have hascending : field.values.toList.Pairwise (· < ·) := Std.TreeSet.ordered_toList.imp compare_lt_iff_lt.1
  refine hascending.eq_of_mem_iff (Finset.sortedLT_sort _).pairwise fun value => ?_
  rw [Std.TreeSet.mem_toList, h.mem_iff, Finset.mem_sort, List.mem_toFinset]

/-- A field that gathers values is reported by them. -/
lemma Gathers.reports (h : field.Gathers path found) (hne : found ≠ []) (maxExamples : ℕ) :
    (field.summary maxExamples).Reports found maxExamples where
  distinctValues_eq := by
    rw [← Finset.length_sort (· ≤ ·), ← h.toList_values, Std.TreeSet.length_toList]
    rfl
  occurrences_eq := h.occurrences_eq
  pattern_iff := h.pattern_iff hne
  examples_eq := by
    rw [← h.toList_values]
    rfl

/-- Fields that gather the same values are reported alike. -/
lemma Gathers.summary_eq (h : field.Gathers path found) (h' : other.Gathers path found) (hne : found ≠ [])
    (maxExamples : ℕ) : field.summary maxExamples = other.summary maxExamples :=
  (h.reports hne maxExamples).unique (h'.reports hne maxExamples) (h.path_eq.trans h'.path_eq.symm)

end IdField

/-! ### Inventories -/

namespace Inventory

variable {byPath byPath' : Std.TreeMap String IdField} {findings findings' : List Finding}

/-- The values found at a path, in order. -/
def valuesAt (findings : List Finding) (path : String) : List String :=
  findings.filterMap fun f => if (Path.ofSegments f.segments).text = path then some f.value else none

/-- A finding that comes last adds its value to those of its own path. -/
lemma valuesAt_concat (findings : List Finding) (f : Finding) (path : String) :
    valuesAt (findings ++ [f]) path =
      if (Path.ofSegments f.segments).text = path then valuesAt findings path ++ [f.value]
      else valuesAt findings path := by
  unfold valuesAt
  rw [List.filterMap_append, List.filterMap_cons, List.filterMap_nil]
  by_cases h : (Path.ofSegments f.segments).text = path
  · rw [if_pos h, if_pos h]
  · rw [if_neg h, if_neg h, List.append_nil]

/-- Under the text of a path stands a field that gathers the values found there, if there are any. -/
structure Holds (byPath : Std.TreeMap String IdField) (findings : List Finding) : Prop where
  eq_none : ∀ path, valuesAt findings path = [] → byPath[path]? = none
  exists_gathers : ∀ path, valuesAt findings path ≠ [] →
    ∃ field, byPath[path]? = some field ∧ field.Gathers path (valuesAt findings path)

lemma holds_nil : Holds {} [] where
  eq_none path _ := by simp
  exists_gathers path h := absurd rfl h

/-- A field that stands in the inventory gathers the values found at its path. -/
lemma Holds.gathers (h : Holds byPath findings) {path : String} {field : IdField}
    (hfield : byPath[path]? = some field) :
    valuesAt findings path ≠ [] ∧ field.Gathers path (valuesAt findings path) := by
  by_cases hfound : valuesAt findings path = []
  · rw [h.eq_none path hfound] at hfield
    cases hfield
  · obtain ⟨field', hfield', hgathers⟩ := h.exists_gathers path hfound
    obtain rfl : field' = field := Option.some.inj (hfield'.symm.trans hfield)
    exact ⟨hfound, hgathers⟩

/-- Where no field stands, a new one gathers what was found so far. -/
lemma Holds.getD (h : Holds byPath findings) (path : String) (wildcard : Bool) :
    (byPath[path]?.getD ⟨path, wildcard, {}, 0, none⟩).Gathers path (valuesAt findings path) := by
  by_cases hfound : valuesAt findings path = []
  · rw [h.eq_none path hfound, hfound]
    exact IdField.gathers_nil path wildcard
  · obtain ⟨field, hfield, hgathers⟩ := h.exists_gathers path hfound
    rw [hfield]
    exact hgathers

/-- A finding goes to the field under the text of its path. -/
lemma getElem?_record (f : Finding) (path : String) :
    (record byPath f)[path]? =
      if (Path.ofSegments f.segments).text = path then
        some ((byPath[path]?.getD ⟨path, (Path.ofSegments f.segments).hasWildcard, {}, 0, none⟩).record
          f.value)
      else byPath[path]? := by
  rw [record, Std.TreeMap.getElem?_alter]
  by_cases h : (Path.ofSegments f.segments).text = path
  · subst h
    simp
  · simp [h]

/-- An inventory that records a finding holds it last. -/
lemma Holds.record (h : Holds byPath findings) (f : Finding) :
    Holds (record byPath f) (findings ++ [f]) := by
  constructor
  case eq_none =>
    intro path
    rw [valuesAt_concat, getElem?_record]
    split
    · intro hnil
      simp at hnil
    · exact h.eq_none path
  case exists_gathers =>
    intro path
    rw [valuesAt_concat, getElem?_record]
    split
    · intro _
      exact ⟨_, rfl, (h.getD path _).record f.value⟩
    · exact h.exists_gathers path

/-- Findings are recorded one after the other. -/
lemma Holds.foldl (h : Holds byPath findings) (more : List Finding) :
    Holds (more.foldl Inventory.record byPath) (findings ++ more) := by
  induction more generalizing byPath findings with
  | nil => rwa [List.append_nil]
  | cons f more ih =>
    have hrest := ih (h.record f)
    rwa [List.append_assoc, List.singleton_append] at hrest

/-- The inventory of elements holds what is found in them. -/
theorem holds_ofElements (elements : List Json) :
    Holds (ofElements elements).byPath (elements.flatMap Json.findings) := by
  have hfold : ∀ inventory : Inventory, (elements.foldl observe inventory).byPath =
      (elements.flatMap Json.findings).foldl Inventory.record inventory.byPath := by
    intro inventory
    rw [List.foldl_flatMap]
    induction elements generalizing inventory with
    | nil => rfl
    | cons element elements ih => exact ih (inventory.observe element)
  rw [ofElements, hfold]
  exact holds_nil.foldl _

/-- A field stands under its own path. -/
lemma Holds.path_eq (h : Holds byPath findings) (path : String) (field : IdField)
    (hfield : byPath[path]? = some field) : field.path = path :=
  (h.gathers hfield).2.path_eq

/-- The values of the field at a path are those found there. -/
lemma Holds.mem_iff (h : Holds byPath findings) (path value : String) :
    (∃ field : IdField, byPath[path]? = some field ∧ value ∈ field.values) ↔
      ∃ f ∈ findings, (Path.ofSegments f.segments).text = path ∧ f.value = value := by
  have hvalues : value ∈ valuesAt findings path ↔
      ∃ f ∈ findings, (Path.ofSegments f.segments).text = path ∧ f.value = value := by
    simp [valuesAt, List.mem_filterMap]
  rw [← hvalues]
  constructor
  · rintro ⟨field, hfield, hvalue⟩
    exact ((h.gathers hfield).2.mem_iff value).1 hvalue
  · intro hvalue
    obtain ⟨field, hfield, hgathers⟩ := h.exists_gathers path (List.ne_nil_of_mem hvalue)
    exact ⟨field, hfield, (hgathers.mem_iff value).2 hvalue⟩

/-! ### The list of fields -/

/-- The fields of an inventory are what stands under its paths. -/
lemma fields_eq (inventory : Inventory) : inventory.fields = inventory.byPath.toList.map Prod.snd := by
  have hvalues : inventory.fields = inventory.byPath.foldr (fun _ field fields => field :: fields) [] := rfl
  rw [hvalues, Std.TreeMap.foldr_eq_foldr_toList]
  induction inventory.byPath.toList with
  | nil => rfl
  | cons entry entries ih => rw [List.foldr_cons, ih, List.map_cons]

/-- The fields of an inventory are those at its paths. -/
lemma mem_fields_iff {inventory : Inventory} {field : IdField} :
    field ∈ inventory.fields ↔ ∃ path, inventory.get? path = some field := by
  rw [fields_eq, List.mem_map]
  simp [Std.TreeMap.mem_toList_iff_getElem?_eq_some, get?]

/-- A field of the inventory of elements is the one at its path. -/
lemma get?_path_of_mem_fields {elements : List Json} {field : IdField}
    (h : field ∈ (ofElements elements).fields) :
    (ofElements elements).get? field.path = some field := by
  obtain ⟨path, hpath⟩ := mem_fields_iff.1 h
  rwa [(holds_ofElements elements).path_eq path field hpath]

/-- The paths of the fields ascend. -/
lemma pairwise_path_fields (elements : List Json) :
    ((ofElements elements).fields.map IdField.path).Pairwise (· < ·) := by
  have hpaths : (ofElements elements).fields.map IdField.path = (ofElements elements).byPath.keys := by
    rw [fields_eq, List.map_map, ← Std.TreeMap.map_fst_toList_eq_keys]
    refine List.map_congr_left ?_
    rintro ⟨path, field⟩ hentry
    rw [Std.TreeMap.mem_toList_iff_getElem?_eq_some] at hentry
    exact (holds_ofElements elements).path_eq path field hentry
  rw [hpaths]
  exact Std.TreeMap.ordered_keys.imp compare_lt_iff_lt.1

/-- Each path at which values are found is reported once, with what there is to report of them. -/
theorem mem_summaries_iff {elements : List Json} {maxExamples : ℕ} {s : IdFieldSummary} :
    s ∈ (ofElements elements).summaries maxExamples ↔
      valuesAt (elements.flatMap Json.findings) s.path ≠ [] ∧
        s.Reports (valuesAt (elements.flatMap Json.findings) s.path) maxExamples := by
  have hholds := holds_ofElements elements
  rw [summaries, List.mem_map]
  constructor
  · rintro ⟨field, hfield, rfl⟩
    obtain ⟨hne, hgathers⟩ := hholds.gathers (get?_path_of_mem_fields hfield)
    exact ⟨hne, hgathers.reports hne maxExamples⟩
  · rintro ⟨hne, hreports⟩
    obtain ⟨field, hfield, hgathers⟩ := hholds.exists_gathers s.path hne
    exact ⟨field, mem_fields_iff.2 ⟨s.path, hfield⟩,
      (hgathers.reports hne maxExamples).unique hreports hgathers.path_eq⟩

/-- What is reported does not depend on the order of the findings. -/
theorem Holds.summaries_eq (h : Holds byPath findings) (h' : Holds byPath' findings')
    (hperm : findings.Perm findings') (scanned scanned' maxExamples : ℕ) :
    summaries ⟨byPath, scanned⟩ maxExamples = summaries ⟨byPath', scanned'⟩ maxExamples := by
  have hsummary : ∀ path : String, (byPath[path]?.map fun field => field.summary maxExamples) =
      byPath'[path]?.map fun field => field.summary maxExamples := by
    intro path
    have hvalues : (valuesAt findings path).Perm (valuesAt findings' path) := hperm.filterMap _
    by_cases hfound : valuesAt findings path = []
    · have hfound' : valuesAt findings' path = [] := (hfound ▸ hvalues).nil_eq.symm
      rw [h.eq_none path hfound, h'.eq_none path hfound']
    · have hfound' : valuesAt findings' path ≠ [] := fun hnil => hfound (hnil ▸ hvalues).eq_nil
      obtain ⟨field, hfield, hgathers⟩ := h.exists_gathers path hfound
      obtain ⟨field', hfield', hgathers'⟩ := h'.exists_gathers path hfound'
      rw [hfield, hfield']
      exact congrArg some ((hgathers.perm hvalues).summary_eq hgathers' hfound' maxExamples)
  have hequiv : (byPath.map fun _ field => field.summary maxExamples).Equiv
      (byPath'.map fun _ field => field.summary maxExamples) := by
    refine Std.TreeMap.Equiv.of_forall_constGet?_eq fun path => ?_
    rw [Std.TreeMap.getElem?_map, Std.TreeMap.getElem?_map]
    exact hsummary path
  have hlist := congrArg (List.map Prod.snd) hequiv.toList_eq
  rw [Std.TreeMap.toList_map, Std.TreeMap.toList_map, List.map_map, List.map_map] at hlist
  unfold summaries
  rw [fields_eq, fields_eq, List.map_map, List.map_map]
  exact hlist

/-! ### Values and scalars -/

/-- The text by which a scalar identifies something at a path, if it does. It stands behind segments with the text of
the path, at least one; it is a text or a number. -/
def identifiesAt? (path : String) (s : List Segment × Json) : Option String :=
  if s.1 ≠ [] ∧ (Path.ofSegments s.1).text = path then Finding.identifying? (nearestKey s.1) s.2 else none

/-- A text identifies something if the nearest key names an id or it has the shape of an entity id, a number only if
the nearest key names an id. -/
lemma identifiesAt?_eq_some_iff {path text : String} {s : List Segment × Json} :
    identifiesAt? path s = some text ↔ (s.1 ≠ [] ∧ (Path.ofSegments s.1).text = path) ∧
      (s.2 = .string text ∧ ((nearestKey s.1).any isIdKey ∨ isEntityId text) ∨
        ∃ n, s.2 = .number n ∧ n.text = text ∧ (nearestKey s.1).any isIdKey) := by
  obtain ⟨segments, scalar⟩ := s
  unfold identifiesAt?
  by_cases hstands : segments ≠ [] ∧ (Path.ofSegments segments).text = path
  · rw [if_pos hstands, and_iff_right hstands]
    cases scalar with
    | string s =>
      simp only [Finding.identifying?, Option.ite_none_right_eq_some, Bool.or_eq_true, Option.some.injEq,
        Json.string.injEq, reduceCtorEq, false_and, exists_false, or_false]
      constructor
      · rintro ⟨hid, rfl⟩
        exact ⟨rfl, hid⟩
      · rintro ⟨rfl, hid⟩
        exact ⟨hid, rfl⟩
    | number n =>
      simp [Finding.identifying?, and_comm]
    | null | bool _ | array _ | object _ => simp [Finding.identifying?]
  · rw [if_neg hstands]
    simp [hstands]

/-- The values found in elements are those of their scalars. -/
lemma valuesAt_findings (elements : List Json) (path : String) :
    valuesAt (elements.flatMap Json.findings) path =
      (elements.flatMap Json.scalars).filterMap (identifiesAt? path) := by
  have hscalar : ∀ s : List Segment × Json, ((Finding.at? s.1 (nearestKey s.1) s.2).bind fun f =>
      if (Path.ofSegments f.segments).text = path then some f.value else none) = identifiesAt? path s := by
    intro s
    unfold Finding.at? identifiesAt?
    by_cases htop : s.1 = []
    · simp [htop]
    · cases hid : Finding.identifying? (nearestKey s.1) s.2 <;> simp [htop]
  unfold valuesAt
  rw [List.filterMap_flatMap, List.filterMap_flatMap]
  congr 1
  funext element
  rw [Finding.findings_eq, List.filterMap_filterMap]
  exact congrFun (congrArg List.filterMap (funext hscalar)) _

/-- The summaries of an inventory are the same for every order of the elements, and their paths ascend; there is one
for each path at which something is found, with what there is to report of it. There is a field at a path exactly if
some scalar inside an element, not itself an element, stands there and identifies something: a text under a nearest key
that names an id or of the shape of an entity id, or a number under such a key. The field has the texts of these
scalars as its values and counts all of them, and its pattern is the one that all of its values have. -/
theorem ofElements_gathers_scalars (elements : List Json) :
    let inventory := ofElements elements
    let scalars := elements.flatMap Json.scalars
    (∀ elements' : List Json, elements'.Perm elements → ∀ maxExamples,
      (ofElements elements').summaries maxExamples = inventory.summaries maxExamples) ∧
    (∀ maxExamples, ((inventory.summaries maxExamples).map (·.path)).Pairwise (· < ·)) ∧
    (∀ maxExamples s, s ∈ inventory.summaries maxExamples ↔
      scalars.filterMap (identifiesAt? s.path) ≠ [] ∧
        s.Reports (scalars.filterMap (identifiesAt? s.path)) maxExamples) ∧
    ∀ path : String,
      let found := scalars.filterMap (identifiesAt? path)
      (∀ text, text ∈ found ↔ ∃ s ∈ scalars, (s.1 ≠ [] ∧ (Path.ofSegments s.1).text = path) ∧
        (s.2 = .string text ∧ ((nearestKey s.1).any isIdKey ∨ isEntityId text) ∨
          ∃ n, s.2 = .number n ∧ n.text = text ∧ (nearestKey s.1).any isIdKey)) ∧
      (found = [] → inventory.get? path = none) ∧
      (found ≠ [] → ∃ field, inventory.get? path = some field ∧ field.path = path ∧
        field.occurrences = found.length ∧ (∀ value, value ∈ field.values ↔ value ∈ found) ∧
        ∀ p, field.pattern = some p ↔ ∀ value ∈ field.values, Pattern.detect? value = some p) := by
  intro inventory scalars
  have hholds := holds_ofElements elements
  refine ⟨?_, ?_, ?_, ?_⟩
  · intro elements' hperm maxExamples
    exact (holds_ofElements elements').summaries_eq hholds (hperm.flatMap_right _) _ _ maxExamples
  · intro maxExamples
    rw [summaries, List.map_map]
    exact pairwise_path_fields elements
  · intro maxExamples s
    rw [← valuesAt_findings]
    exact mem_summaries_iff
  · intro path found
    have hfound : valuesAt (elements.flatMap Json.findings) path = found := valuesAt_findings elements path
    refine ⟨?_, ?_, ?_⟩
    · intro text
      rw [List.mem_filterMap]
      simp only [identifiesAt?_eq_some_iff]
    · intro hnil
      exact hholds.eq_none path (hfound.trans hnil)
    · intro hne
      obtain ⟨field, hfield, hgathers⟩ := hholds.exists_gathers path (hfound ▸ hne)
      rw [hfound] at hgathers
      refine ⟨field, hfield, hgathers.path_eq, hgathers.occurrences_eq, hgathers.mem_iff, fun p => ?_⟩
      rw [hgathers.pattern_iff hne]
      exact forall_congr' fun value => imp_congr_left (hgathers.mem_iff value).symm

end Inventory

end EntityDump
