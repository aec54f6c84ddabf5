import EntityDump.Proofs.Join
import EntityDump.Proofs.Path.RoundTrip
import EntityDump.Proofs.Reading
import EntityDump.Proofs.Relationship.Inventory
import Mathlib.Data.List.Perm.Subperm
/-!
# Joins on detected keys

The keys that are detected for a join are the texts of paths at which identifying values were found. They
read back as these paths, and the paths select the values that were found, so that the join has a pair for every
value that both fields hold (`join_of_detected_keys`).

A value that was found makes its way from the inventory to the index of the join in two steps: the field at a
path holds it only if some element joins under it (`exists_joinKeys_of_mem_values`), and every value of two
fields makes a pair of its own (`sharedValues_le_length_joinPairs`).
-/

namespace EntityDump

open Json.Grammar (Derives IsBlank IsChars IsStringOf)

/-! ### Keys that a path can name -/

namespace Path

/-- A key that can be read back wherever it stands in a path: it is not empty, neither begins nor ends with a
blank, and does not hold a quote before a closing bracket. -/
structure IsReadableKey (name : String) : Prop where
  ne_empty : name ≠ ""
  head : ∀ c ∈ name.toList.head?, Text.isBlank c = false
  last : ∀ c ∈ name.toList.getLast?, Text.isBlank c = false
  closing : ¬ ['\'', ']'] <:+: name.toList

/-- Whether a key reads back can be computed. -/
lemma isReadableKey_iff (name : String) :
    IsReadableKey name ↔ name ≠ "" ∧ name.toList.head?.any Text.isBlank = false ∧
      name.toList.getLast?.any Text.isBlank = false ∧ ¬ ['\'', ']'] <:+: name.toList := by
  rw [Option.any_eq_false, Option.any_eq_false]
  constructor
  · exact fun h => ⟨h.ne_empty, by simpa using h.head, by simpa using h.last, h.closing⟩
  · exact fun ⟨hne, hhead, hlast, hclosing⟩ => ⟨hne, by simpa using hhead, by simpa using hlast, hclosing⟩

instance (name : String) : Decidable (IsReadableKey name) :=
  decidable_of_iff' _ (isReadableKey_iff name)

/-- Paths through keys that can be read back can be read back. -/
lemma readable_of_steps {segments : List Segment}
    (h : ∀ segment ∈ segments, Finding.Step IsReadableKey segment) : Readable segments := by
  have hkey : ∀ name, Segment.key name ∈ segments → IsReadableKey name := fun name hname => h _ hname
  refine ⟨fun segment hsegment => ?_, fun name hname _ => (hkey name (List.mem_of_head? hname)).head,
    fun name hname _ => (hkey name (List.mem_of_getLast? hname)).last⟩
  cases segment with
  | key name => exact ⟨(hkey name hsegment).ne_empty, .inr (hkey name hsegment).closing⟩
  | wildcard => trivial
  | index n => exact (h _ hsegment).elim

end Path

section Fields

variable {elements : List Json} {path : String} {field : IdField}

/-- The text of a field's path can be read, and each value of the field is a key of some element there. -/
lemma exists_joinKeys_of_mem_values (hordered : ∀ element ∈ elements, element.Ordered)
    (hkeys : ∀ element ∈ elements, element.EveryKey Path.IsReadableKey)
    (hfield : (Inventory.ofElements elements).get? path = some field) {value : String}
    (hvalue : value ∈ field.values) :
    ∃ p, Path.parse path = .ok p ∧ ∃ element ∈ elements, value ∈ joinKeys p element := by
  have hholds := Inventory.holds_ofElements elements
  obtain ⟨f, hf, rfl, rfl⟩ := (hholds.mem_iff path value).1 ⟨field, hfield, hvalue⟩
  obtain ⟨element, helement, hf⟩ := List.mem_flatMap.1 hf
  obtain ⟨hsteps, hselect⟩ :=
    Finding.select_of_mem_findings (hordered element helement) (hkeys element helement) hf
  exact ⟨_, Path.parse_ofSegments (Path.readable_of_steps hsteps), element, helement, hselect⟩

end Fields

/-! ### Detection -/

namespace JoinKeys

variable {config : InferenceConfig} {left right : Inventory} {sameSource : Bool}
  {leftKey rightKey : Option String} {r : Relationship}

/-- The best relationship is one between a field of each side. -/
lemma exists_fields_of_best? {minCoverage : Float}
    (h : best? left right sameSource leftKey rightKey minCoverage = some r) :
    ∃ l ∈ left.fields, ∃ r' ∈ right.fields, Relationship.between? minCoverage l r' = some r := by
  have hmem := List.mem_of_find?_eq_some h
  rw [inferRelationships, (List.mergeSort_perm _ _).mem_iff, List.mem_flatMap] at hmem
  obtain ⟨l, hl, hmem⟩ := hmem
  obtain ⟨r', hr', hr⟩ := List.mem_filterMap.1 hmem
  split at hr
  · cases hr
  · exact ⟨l, hl, r', hr', hr⟩

/-- The keys that are detected are the paths of two fields that share a value. -/
lemma exists_fields_of_detect? (h : detect? config left right sameSource leftKey rightKey = some r) :
    ∃ l ∈ left.fields, ∃ r' ∈ right.fields,
      r.leftPath = l.path ∧ r.rightPath = r'.path ∧ 1 ≤ l.sharedValues r' := by
  have hbetween : ∃ minCoverage, ∃ l ∈ left.fields, ∃ r' ∈ right.fields,
      Relationship.between? minCoverage l r' = some r := by
    rw [detect?] at h
    cases hbest : best? left right sameSource leftKey rightKey config.minCoverage with
    | some best =>
      rw [hbest] at h
      obtain rfl := Option.some.inj h
      exact ⟨_, exists_fields_of_best? hbest⟩
    | none =>
      rw [hbest] at h
      exact ⟨_, exists_fields_of_best? h⟩
  obtain ⟨minCoverage, l, hl, r', hr', hr⟩ := hbetween
  refine ⟨l, hl, r', hr', ?_⟩
  unfold Relationship.between? at hr
  dsimp only at hr
  split at hr
  · cases hr
  · next hshared =>
    split at hr
    · cases hr
    · obtain rfl := Option.some.inj hr
      exact ⟨rfl, rfl, Nat.one_le_iff_ne_zero.2 hshared⟩

end JoinKeys

/-! ### Counting pairs -/

section Count

variable {leftPath rightPath : Path} {lefts rights : List Json}

/-- Items that give something each give at least as many together. -/
lemma length_filter_le_length_flatMap {α β : Type} {p : α → Bool} {f : α → List β}
    (h : ∀ a, p a = true → f a ≠ []) (as : List α) : (as.filter p).length ≤ (as.flatMap f).length := by
  induction as with
  | nil => exact Nat.le_refl _
  | cons a as ih =>
    rw [List.flatMap_cons, List.length_append, List.filter_cons]
    split
    · next ha =>
      have := List.length_pos_iff.2 (h a ha)
      rw [List.length_cons]
      omega
    · omega

/-- Distinct keys that elements on either side have make distinct pairs. -/
lemma length_le_length_joinPairs {keys : List String} (hnodup : keys.Nodup)
    (hleft : ∀ key ∈ keys, ∃ left ∈ lefts, key ∈ joinKeys leftPath left)
    (hright : ∀ key ∈ keys, ∃ right ∈ rights, key ∈ joinKeys rightPath right) :
    keys.length ≤ (joinPairs leftPath rightPath {} lefts rights).length := by
  -- The elements on the left with each of their keys.
  let entries : List (Json × String) := lefts.flatMap fun left =>
    (joinKeys leftPath left).map fun key => (left, key)
  let hits : Json × String → Bool := fun entry =>
    rights.any fun right => decide (entry.2 ∈ joinKeys rightPath right)
  have hpairs : joinPairs leftPath rightPath {} lefts rights = entries.flatMap fun entry =>
      (rights.filter fun right => entry.2 ∈ joinKeys rightPath right).map fun right => (entry.1, right) := by
    simp [joinPairs, entries, FilterSet.acceptsPair, List.flatMap_assoc, List.flatMap_map]
  have hsub : keys ⊆ (entries.filter hits).map (·.2) := by
    intro key hkey
    obtain ⟨left, hleft, hkeyLeft⟩ := hleft key hkey
    obtain ⟨right, hright, hkeyRight⟩ := hright key hkey
    refine List.mem_map.2 ⟨(left, key), List.mem_filter.2 ⟨?_, ?_⟩, rfl⟩
    · exact List.mem_flatMap.2 ⟨left, hleft, List.mem_map.2 ⟨key, hkeyLeft, rfl⟩⟩
    · exact List.any_eq_true.2 ⟨right, hright, decide_eq_true hkeyRight⟩
  calc keys.length ≤ ((entries.filter hits).map (·.2)).length := (hnodup.subperm hsub).length_le
    _ = (entries.filter hits).length := List.length_map _
    _ ≤ (joinPairs leftPath rightPath {} lefts rights).length := by
      rw [hpairs]
      refine length_filter_le_length_flatMap (fun entry hentry => ?_) entries
      obtain ⟨right, hright, hkey⟩ := List.any_eq_true.1 hentry
      exact List.ne_nil_of_mem
        (List.mem_map.2 ⟨right, List.mem_filter.2 ⟨hright, hkey⟩, rfl⟩)

/-- Every value that two fields share makes a pair. -/
lemma sharedValues_le_length_joinPairs {leftField rightField : IdField}
    (hleft : ∀ value ∈ leftField.values, ∃ left ∈ lefts, value ∈ joinKeys leftPath left)
    (hright : ∀ value ∈ rightField.values, ∃ right ∈ rights, value ∈ joinKeys rightPath right) :
    leftField.sharedValues rightField ≤ (joinPairs leftPath rightPath {} lefts rights).length := by
  rw [IdField.sharedValues, List.countP_eq_length_filter]
  refine length_le_length_joinPairs ?_ (fun value hvalue => ?_) fun value hvalue => ?_
  · exact leftField.nodup_values.filter _
  · exact hleft value (Std.TreeSet.mem_toList.1 (List.mem_filter.1 hvalue).1)
  · exact hright value (Std.TreeSet.contains_iff_mem.1 (List.mem_filter.1 hvalue).2)

end Count

/-! ### The join on detected keys -/

section Join

variable {engine : Engine} {left right : Source} {lefts rights : List Json} {keys : JoinKeys}

/-- What is known of keys that were detected: both can be read, they are the paths of two fields that share a
value, and the join on them has a pair for each value that the fields share. -/
structure Detected (lefts rights : List Json) (keys : JoinKeys) (leftPath rightPath : Path)
    (leftField rightField : IdField) : Prop where
  parse_left : Path.parse keys.left = .ok leftPath
  parse_right : Path.parse keys.right = .ok rightPath
  get_left : (Inventory.ofElements lefts).get? keys.left = some leftField
  get_right : (Inventory.ofElements rights).get? keys.right = some rightField
  one_le : 1 ≤ leftField.sharedValues rightField
  le_pairs : leftField.sharedValues rightField ≤ (joinPairs leftPath rightPath {} lefts rights).length

/-- The identifying fields of a source are those of its elements. -/
lemma idFields_eq (hlefts : left.elements engine.config.stream engine.directory = .ok lefts) :
    engine.idFields left = .ok (Inventory.ofElements lefts) := by
  rw [Engine.idFields, scan_eq_map_elements, hlefts]
  rfl

/-- Without given keys those of a relationship are detected. -/
lemma joinKeys_none_none
    (hlefts : left.elements engine.config.stream engine.directory = .ok lefts)
    (hrights : right.elements engine.config.stream engine.directory = .ok rights) :
    engine.joinKeys left right none none =
      match JoinKeys.detect? engine.config.inference (Inventory.ofElements lefts)
        (Inventory.ofElements rights) (left.same right) none none with
      | some best => .ok ⟨best.leftPath, best.rightPath, some best.coverage⟩
      | none => .error (.noRelationship left.path right.path) := by
  unfold Engine.joinKeys
  simp only [idFields_eq hlefts, idFields_eq hrights, bind, Except.bind]
  rfl

/-- Keys that are detected in elements whose keys can be read back. -/
theorem exists_detected (hlefts : left.elements engine.config.stream engine.directory = .ok lefts)
    (hrights : right.elements engine.config.stream engine.directory = .ok rights)
    (hleftKeys : ∀ element ∈ lefts, element.EveryKey Path.IsReadableKey)
    (hrightKeys : ∀ element ∈ rights, element.EveryKey Path.IsReadableKey)
    (hkeys : engine.joinKeys left right none none = .ok keys) :
    ∃ leftPath rightPath leftField rightField,
      Detected lefts rights keys leftPath rightPath leftField rightField := by
  obtain ⟨r, hr, rfl⟩ : ∃ r, JoinKeys.detect? engine.config.inference (Inventory.ofElements lefts)
      (Inventory.ofElements rights) (left.same right) none none = some r ∧
        ⟨r.leftPath, r.rightPath, some r.coverage⟩ = keys := by
    rw [joinKeys_none_none hlefts hrights] at hkeys
    split at hkeys
    · next r hr => exact ⟨r, hr, Except.ok.inj hkeys⟩
    · cases hkeys
  obtain ⟨l, hl, r', hr', hleft, hright, hshared⟩ := JoinKeys.exists_fields_of_detect? hr
  have hgetLeft : (Inventory.ofElements lefts).get? r.leftPath = some l := by
    rw [hleft, Inventory.get?_path_of_mem_fields hl]
  have hgetRight : (Inventory.ofElements rights).get? r.rightPath = some r' := by
    rw [hright, Inventory.get?_path_of_mem_fields hr']
  have hleftValues : ∀ value ∈ l.values, ∃ path, Path.parse r.leftPath = .ok path ∧
      ∃ element ∈ lefts, value ∈ joinKeys path element := fun _ hvalue =>
    exists_joinKeys_of_mem_values (Source.ordered_of_elements hlefts) hleftKeys hgetLeft hvalue
  have hrightValues : ∀ value ∈ r'.values, ∃ path, Path.parse r.rightPath = .ok path ∧
      ∃ element ∈ rights, value ∈ joinKeys path element := fun _ hvalue =>
    exists_joinKeys_of_mem_values (Source.ordered_of_elements hrights) hrightKeys hgetRight hvalue
  -- The paths are read for one shared value, and then are the same for all values.
  obtain ⟨value, hvalue, hother⟩ := List.countP_pos_iff.1 hshared
  obtain ⟨leftPath, hleftPath, -⟩ := hleftValues value (Std.TreeSet.mem_toList.1 hvalue)
  obtain ⟨rightPath, hrightPath, -⟩ := hrightValues value (Std.TreeSet.contains_iff_mem.1 hother)
  refine ⟨leftPath, rightPath, l, r', hleftPath, hrightPath, hgetLeft, hgetRight, hshared,
    sharedValues_le_length_joinPairs (fun value hvalue => ?_) fun value hvalue => ?_⟩
  · obtain ⟨path, hpath, element⟩ := hleftValues value hvalue
    rwa [Except.ok.inj (hleftPath.symm.trans hpath)]
  · obtain ⟨path, hpath, element⟩ := hrightValues value hvalue
    rwa [Except.ok.inj (hrightPath.symm.trans hpath)]

/-- A join that is answered has keys, and its fields can be read. -/
lemma exists_joinKeys_of_join {options : JoinOptions} {result : JoinResult}
    (hjoin : engine.join left right options = .ok result) :
    ∃ select keys, options.select.mapM SideProjection.parse = .ok select ∧
      engine.joinKeys left right options.leftKey options.rightKey = .ok keys := by
  unfold Engine.join at hjoin
  cases hfilter : engine.pairFilter options.filter with
  | error e => simp [hfilter, bind, Except.bind] at hjoin
  | ok filter =>
    cases hselect : options.select.mapM SideProjection.parse with
    | error e => simp [hfilter, hselect, bind, Except.bind] at hjoin
    | ok select =>
      cases hkeys : engine.joinKeys left right options.leftKey options.rightKey with
      | error e => simp [hfilter, hselect, hkeys, bind, Except.bind] at hjoin
      | ok keys => exact ⟨select, keys, rfl, rfl⟩

/-- A join without a filter counts the pairs that two nested loops give for its keys. -/
lemma exists_join_eq_ok (options : JoinOptions) {select : List SideProjection} {leftPath rightPath : Path}
    (hlefts : left.elements engine.config.stream engine.directory = .ok lefts)
    (hrights : right.elements engine.config.stream engine.directory = .ok rights)
    (hselect : options.select.mapM SideProjection.parse = .ok select)
    (hkeys : engine.joinKeys left right options.leftKey options.rightKey = .ok keys)
    (hleftPath : Path.parse keys.left = .ok leftPath) (hrightPath : Path.parse keys.right = .ok rightPath)
    (hfilter : options.filter = none) :
    ∃ result, engine.join left right options = .ok result ∧
      result.leftKey = keys.left ∧ result.rightKey = keys.right ∧
      result.totalMatched = (joinPairs leftPath rightPath {} lefts rights).length := by
  have hall : engine.pairFilter options.filter = .ok {} := by
    rw [hfilter]
    rfl
  obtain ⟨result, hjoin, ⟨hleft, hright⟩, hmatched, -⟩ :=
    exists_join_of_joinKeys hkeys hleftPath hrightPath hall hselect hlefts hrights
  exact ⟨result, hjoin, hleft, hright, hmatched⟩

/-- Keys that are detected for a join can be read, if every key inside an element can be read back. And if
the join without a filter is answered, its keys are the paths of two fields that have some value in common, and it
counts at least as many pairs as they have values in common. -/
theorem join_of_detected_keys (engine : Engine) (left right : Source) (options : JoinOptions)
    (lefts rights : List Json)
    (hlefts : left.elements engine.config.stream engine.directory = .ok lefts)
    (hrights : right.elements engine.config.stream engine.directory = .ok rights)
    (hleftKeys : ∀ element ∈ lefts, element.EveryKey Path.IsReadableKey)
    (hrightKeys : ∀ element ∈ rights, element.EveryKey Path.IsReadableKey)
    (hleftKey : options.leftKey = none) (hrightKey : options.rightKey = none)
    (hfilter : options.filter = none) :
    (∀ keys, engine.joinKeys left right none none = .ok keys →
      (∃ path, Path.parse keys.left = .ok path) ∧ ∃ path, Path.parse keys.right = .ok path) ∧
    ∀ result, engine.join left right options = .ok result →
      ((∃ path, Path.parse result.leftKey = .ok path) ∧ ∃ path, Path.parse result.rightKey = .ok path) ∧
      ∃ leftField rightField,
        (Inventory.ofElements lefts).get? result.leftKey = some leftField ∧
        (Inventory.ofElements rights).get? result.rightKey = some rightField ∧
        1 ≤ leftField.sharedValues rightField ∧
        leftField.sharedValues rightField ≤ result.totalMatched := by
  refine ⟨fun keys hkeys => ?_, fun result hjoin => ?_⟩
  · obtain ⟨leftPath, rightPath, _, _, h⟩ := exists_detected hlefts hrights hleftKeys hrightKeys hkeys
    exact ⟨⟨leftPath, h.parse_left⟩, rightPath, h.parse_right⟩
  obtain ⟨select, keys, hselect, hkeys⟩ := exists_joinKeys_of_join hjoin
  obtain ⟨leftPath, rightPath, leftField, rightField, h⟩ :=
    exists_detected hlefts hrights hleftKeys hrightKeys (by rwa [hleftKey, hrightKey] at hkeys)
  obtain ⟨result', hjoin', hleft, hright, hmatched⟩ :=
    exists_join_eq_ok options hlefts hrights hselect hkeys h.parse_left h.parse_right hfilter
  obtain rfl : result = result' := Except.ok.inj (hjoin.symm.trans hjoin')
  rw [hleft, hright, hmatched]
  exact ⟨⟨⟨leftPath, h.parse_left⟩, rightPath, h.parse_right⟩, leftField, rightField, h.get_left,
    h.get_right, h.one_le, h.le_pairs⟩

end Join

/-- Two files with the text `[{"a.Id":"x"}]`. -/
def twoIds : Directory :=
  ⟨[("a", [0x5b, 0x7b, 0x22, 0x61, 0x2e, 0x49, 0x64, 0x22, 0x3a, 0x22, 0x78, 0x22, 0x7d, 0x5d]),
    ("b", [0x5b, 0x7b, 0x22, 0x61, 0x2e, 0x49, 0x64, 0x22, 0x3a, 0x22, 0x78, 0x22, 0x7d, 0x5d])]⟩

/-- The two files joined without keys, where the key that is detected stands in brackets. -/
theorem join_of_key_in_brackets :
    ∃ result, Engine.join ⟨{}, twoIds⟩ (.rootArray "a") (.rootArray "b") {} = .ok result ∧
      result.leftKey = "['a.Id']" ∧ result.rightKey = "['a.Id']" ∧ 1 ≤ result.totalMatched := by
  have hblank : IsBlank [] := by simp [IsBlank]
  have hname : IsChars [0x61, 0x2e, 0x49, 0x64] :=
    .unescaped (c := 'a') (by decide) (by decide) (by decide) <|
      .unescaped (c := '.') (by decide) (by decide) (by decide) <|
        .unescaped (c := 'I') (by decide) (by decide) (by decide) <|
          .unescaped (c := 'd') (by decide) (by decide) (by decide) .nil
  have hkey : IsStringOf [0x22, 0x61, 0x2e, 0x49, 0x64, 0x22] "a.Id" := ⟨.mk hname, by decide⟩
  have hchar : IsChars [0x78] := .unescaped (c := 'x') (by decide) (by decide) (by decide) .nil
  have hvalue : Derives [0x22, 0x78, 0x22] (.element (.scalar (.string "x"))) :=
    .element hblank (.scalar (.string ⟨.mk hchar, by decide⟩)) hblank
  have hobject : Derives [0x7b, 0x22, 0x61, 0x2e, 0x49, 0x64, 0x22, 0x3a, 0x22, 0x78, 0x22, 0x7d]
      (.value (.object [("a.Id", .scalar (.string "x"))])) :=
    .object (.lastField (.member hblank hkey hblank hvalue))
  have harray : Derives
      [0x5b, 0x7b, 0x22, 0x61, 0x2e, 0x49, 0x64, 0x22, 0x3a, 0x22, 0x78, 0x22, 0x7d, 0x5d]
      (.value (.array [.object [("a.Id", .scalar (.string "x"))]])) :=
    .array (.lastItem (.element hblank hobject hblank))
  have hlefts : (Source.rootArray "a").elements {} twoIds = .ok [.object [("a.Id", .string "x")]] :=
    Source.elements_of_isText (.rootArray "a") {} twoIds (by decide) (.element hblank harray hblank)
      (by decide)
  have hrights : (Source.rootArray "b").elements {} twoIds = .ok [.object [("a.Id", .string "x")]] :=
    Source.elements_of_isText (.rootArray "b") {} twoIds (by decide) (.element hblank harray hblank)
      (by decide)
  have hreadable : ∀ element ∈ [Json.object [("a.Id", .string "x")]],
      element.EveryKey Path.IsReadableKey := by
    intro element helement
    obtain rfl := List.mem_singleton.1 helement
    refine .object (fun field hfield => ?_) fun field hfield => ?_
    · obtain rfl := List.mem_singleton.1 hfield
      decide +kernel
    · obtain rfl := List.mem_singleton.1 hfield
      exact .string "x"
  have hdetect : (JoinKeys.detect? {} (Inventory.ofElements [.object [("a.Id", .string "x")]])
      (Inventory.ofElements [.object [("a.Id", .string "x")]])
      ((Source.rootArray "a").same (.rootArray "b")) none none).map
        (fun r => (r.leftPath, r.rightPath)) = some ("['a.Id']", "['a.Id']") := by decide +kernel
  obtain ⟨r, hr, hpaths⟩ := Option.map_eq_some_iff.1 hdetect
  obtain ⟨hleftPath, hrightPath⟩ := Prod.mk.inj hpaths
  have hkeys : Engine.joinKeys ⟨{}, twoIds⟩ (.rootArray "a") (.rootArray "b") none none =
      .ok ⟨"['a.Id']", "['a.Id']", some r.coverage⟩ := by
    rw [joinKeys_none_none hlefts hrights, hr]
    dsimp only
    rw [hleftPath, hrightPath]
  have hjoin := join_of_detected_keys ⟨{}, twoIds⟩ (.rootArray "a") (.rootArray "b") {} _ _ hlefts hrights
    hreadable hreadable rfl rfl rfl
  obtain ⟨⟨path, hpath⟩, -⟩ := hjoin.1 _ hkeys
  obtain ⟨result, hresult, hleft, hright, -⟩ :=
    exists_join_eq_ok {} hlefts hrights rfl hkeys hpath hpath rfl
  obtain ⟨-, _, _, -, -, hone, hle⟩ := hjoin.2 result hresult
  exact ⟨result, hresult, hleft, hright, hone.trans hle⟩

end EntityDump
