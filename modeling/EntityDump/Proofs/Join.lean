import EntityDump.Proofs.Filter.Literal
import EntityDump.Proofs.Query.Fields
import Mathlib.Data.List.Dedup
/-!
# Joins as nested loops

A join gives the pairs that two nested loops give (`joinPairs`): for each element on the left and each
of its keys, the elements on the right that have the key. This is `join_eq_joinPairs`.

The index stands in for the inner loop. Under each key it holds the elements that have the key, each
once and in order (`Indexes`). An element that has a key again finds itself last in the bucket, since
elements come one after another: `getElem?_foldl_put` says what all of its keys come to.
-/

namespace EntityDump

open Json.Grammar (Derives IsBlank)

/-! ### The index -/

namespace RightIndex

/-- The entries under a key. -/
def entriesAt (buckets : Std.TreeMap String (Array RightEntry)) (key : String) : Array RightEntry :=
  buckets[key]?.getD #[]

/-- The index holds the given elements under their keys. -/
structure Indexes (path : Path) (index : RightIndex) (elements : List Json) : Prop where
  scanned : index.scanned = elements.length
  /-- The places in the index are those of the elements. -/
  place_lt : ∀ key, ∀ entry ∈ entriesAt index.buckets key, entry.place < index.scanned
  /-- Under a key stand the elements that have it, each once and in order. -/
  entries_eq : ∀ key, (entriesAt index.buckets key).toList.map (·.element) =
    elements.filter fun element => key ∈ joinKeys path element
  /-- The keys are those of the elements. -/
  mem_iff : ∀ key, key ∈ index.buckets ↔ ∃ element ∈ elements, key ∈ joinKeys path element

section Put

variable {entry : RightEntry} {bucket : Array RightEntry}

/-- An element that is put behind others is not put there again. -/
lemma push_push : push entry (bucket.push entry) = bucket.push entry := by
  simp [push]

/-- An element is put behind those before it. -/
lemma push_of_place_lt (h : ∀ e ∈ bucket, e.place < entry.place) :
    push entry bucket = bucket.push entry := by
  unfold push
  rw [if_neg]
  cases hback : bucket.back? with
  | none => simp
  | some e =>
    have hplace := h e (Array.mem_of_back? hback)
    simp only [Option.any_some, beq_iff_eq]
    omega

/-- Putting an element under a key changes what stands there. -/
lemma getElem?_put (buckets : Std.TreeMap String (Array RightEntry)) (key k : String) :
    (put entry buckets key)[k]? =
      if key = k then some (push entry (entriesAt buckets key)) else buckets[k]? := by
  simp [put, entriesAt, Std.TreeMap.getElem?_alter]

/-- Putting an element under keys puts it once behind the elements under each of them, however often a key
repeats. -/
lemma getElem?_foldl_put {buckets : Std.TreeMap String (Array RightEntry)}
    (hplace : ∀ key, ∀ e ∈ entriesAt buckets key, e.place < entry.place)
    (keys : List String) (key : String) :
    (keys.foldl (put entry) buckets)[key]? =
      if key ∈ keys then some ((entriesAt buckets key).push entry) else buckets[key]? := by
  -- Some keys are done already, and may come again.
  have h : ∀ (keys done : List String) (current : Std.TreeMap String (Array RightEntry)),
      (∀ key, current[key]? = if key ∈ done then some ((entriesAt buckets key).push entry)
        else buckets[key]?) →
      (keys.foldl (put entry) current)[key]? =
        if key ∈ done ++ keys then some ((entriesAt buckets key).push entry) else buckets[key]? := by
    intro keys
    induction keys with
    | nil =>
      intro done current hcurrent
      rw [List.append_nil]
      exact hcurrent key
    | cons k keys ih =>
      intro done current hcurrent
      rw [List.foldl_cons, ih (done ++ [k])]
      · simp
      intro key
      rw [getElem?_put]
      by_cases hk : k = key
      · subst hk
        by_cases hdone : k ∈ done
        · simp [entriesAt, hcurrent, hdone, push_push]
        · have hpush := push_of_place_lt (hplace k)
          simp only [entriesAt] at hpush ⊢
          simp [hcurrent, hdone, hpush]
      · rw [if_neg hk, hcurrent]
        simp [Ne.symm hk]
  exact h keys [] buckets (by simp)

end Put

section Indexes

variable {path : Path} {index : RightIndex} {elements : List Json}

/-- The entries under a key after an element was taken. -/
lemma Indexes.entriesAt_add (h : Indexes path index elements) (element : Json) (key : String) :
    entriesAt (index.add path element).buckets key =
      if key ∈ joinKeys path element then
        (entriesAt index.buckets key).push ⟨index.scanned, element⟩
      else entriesAt index.buckets key := by
  rw [entriesAt, RightIndex.add, getElem?_foldl_put h.place_lt]
  split <;> rfl

/-- Of elements with one more, those with a key. -/
lemma filter_append_singleton (element : Json) (key : String) :
    ((elements ++ [element]).filter fun e => key ∈ joinKeys path e) =
      if key ∈ joinKeys path element then
        (elements.filter fun e => key ∈ joinKeys path e) ++ [element]
      else elements.filter fun e => key ∈ joinKeys path e := by
  rw [List.filter_append]
  split <;> simp [*]

/-- An element that is taken stands behind those before it under each of its keys. -/
lemma Indexes.add (h : Indexes path index elements) (element : Json) :
    Indexes path (index.add path element) (elements ++ [element]) := by
  have hentries := h.entriesAt_add element
  refine ⟨by simp [RightIndex.add, h.scanned], fun key entry hentry => ?_, fun key => ?_, fun key => ?_⟩
  · rw [hentries] at hentry
    split at hentry
    · rcases Array.mem_push.1 hentry with hentry | rfl
      · exact Nat.lt_succ_of_lt (h.place_lt key entry hentry)
      · exact Nat.lt_succ_self _
    · exact Nat.lt_succ_of_lt (h.place_lt key entry hentry)
  · rw [hentries, filter_append_singleton, ← h.entries_eq key]
    split <;> simp
  · rw [Std.TreeMap.mem_iff_isSome_getElem?, RightIndex.add, getElem?_foldl_put h.place_lt]
    by_cases hkey : key ∈ joinKeys path element
    · simp [hkey]
    · simpa [hkey] using h.mem_iff key

/-- The index of elements holds them. -/
theorem indexes_ofElements (path : Path) (elements : List Json) :
    Indexes path (ofElements path elements) elements := by
  have h : ∀ (index : RightIndex) (before after : List Json), Indexes path index before →
      Indexes path (after.foldl (RightIndex.add path) index) (before ++ after) := by
    intro index before after
    induction after generalizing index before with
    | nil =>
      intro h
      rwa [List.append_nil]
    | cons element after ih =>
      intro h
      have hrest := ih _ _ (h.add element)
      rwa [List.append_assoc, List.singleton_append] at hrest
  refine h {} [] elements ⟨rfl, ?_, ?_, ?_⟩
  · simp [entriesAt]
  · simp [entriesAt]
  · simp

/-- The partners of an element: for each of its keys, the elements that have the key. -/
lemma Indexes.partners_eq (h : Indexes path index elements) (leftPath : Path) (left : Json) :
    index.partners leftPath left = (joinKeys leftPath left).flatMap fun key =>
      elements.filter fun element => key ∈ joinKeys path element := by
  unfold partners
  congr 1
  funext key
  rw [← h.entries_eq key, get?, entriesAt]
  cases index.buckets[key]? <;> simp

/-- The size of the index is the number of distinct keys. -/
lemma Indexes.size_eq (h : Indexes path index elements) :
    index.size = (elements.flatMap (joinKeys path)).dedup.length := by
  rw [size, ← Std.TreeMap.length_keys]
  refine List.Perm.length_eq ?_
  rw [List.perm_ext_iff_of_nodup Std.TreeMap.nodup_keys (List.nodup_dedup _)]
  intro key
  rw [Std.TreeMap.mem_keys, h.mem_iff, List.mem_dedup, List.mem_flatMap]

end Indexes

end RightIndex

/-! ### Nested loops -/

/-- The pairs that two nested loops give: for each element on the left and each key that it has there,
in order and with repetitions, the elements on the right that have the key, each once, if the filter
accepts the pair. -/
def joinPairs (leftPath rightPath : Path) (filter : FilterSet) (lefts rights : List Json) :
    List (Json × Json) :=
  lefts.flatMap fun left => (joinKeys leftPath left).flatMap fun key =>
    (rights.filter fun right => key ∈ joinKeys rightPath right ∧ filter.acceptsPair left right).map
      fun right => (left, right)

section Loops

variable {leftPath rightPath : Path} {filter : FilterSet} {select : List SideProjection} {limit : Nat}
  {index : RightIndex} {rights : List Json}

/-- The pairs of one element on the left, taken from the index. -/
lemma joinPairs_singleton (h : RightIndex.Indexes rightPath index rights) (left : Json) :
    joinPairs leftPath rightPath filter [left] rights =
      ((index.partners leftPath left).filter fun right => filter.acceptsPair left right).map
        fun right => (left, right) := by
  rw [joinPairs, List.flatMap_singleton, h.partners_eq, List.filter_flatMap, List.map_flatMap]
  congr 1
  funext key
  rw [List.filter_filter]
  congr 2
  funext right
  rw [Bool.decide_and, Bool.decide_coe, Bool.and_comm]

/-- The state of a join that has seen the given number of elements and the given pairs. -/
structure JoinState.Collected (select : List SideProjection) (limit : Nat) (s : JoinState)
    (pairs : List (Json × Json)) (scanned : Nat) : Prop where
  items : s.reversed.reverse = (pairs.take limit).map fun pair => joinItem select pair.1 pair.2
  length : s.length = (pairs.take limit).length
  matched : s.matched = pairs.length
  scanned : s.scanned = scanned

/-- An element on the left adds its pairs. -/
lemma JoinState.Collected.step {s : JoinState} {pairs : List (Json × Json)} {n : Nat}
    (h : s.Collected select limit pairs n) (hindex : RightIndex.Indexes rightPath index rights)
    (leftPath : Path) (filter : FilterSet) (left : Json) :
    (s.step index leftPath filter select limit left).Collected select limit
      (pairs ++ joinPairs leftPath rightPath filter [left] rights) (n + 1) := by
  rw [joinPairs_singleton hindex]
  generalize hpassing : (index.partners leftPath left).filter (fun right =>
    filter.acceptsPair left right) = passing
  -- What is left of the limit is the same whether all pairs are counted or the items alone.
  have hleft : limit - s.length = limit - pairs.length := by
    rw [h.length, List.length_take]
    omega
  unfold JoinState.step
  simp only [hpassing, hleft]
  constructor
  · simp [h.items, List.take_append, List.map_take, Function.comp_def]
  · simp [h.length, List.take_append]
  · simp [h.matched]
  · simp [h.scanned]

/-- A join over the elements on the left gives the pairs of the nested loops. -/
theorem collected_foldl_step (hindex : RightIndex.Indexes rightPath index rights) (leftPath : Path)
    (filter : FilterSet) (select : List SideProjection) (limit : Nat) (lefts : List Json) :
    (lefts.foldl (JoinState.step index leftPath filter select limit) {}).Collected select limit
      (joinPairs leftPath rightPath filter lefts rights) lefts.length := by
  have h : ∀ (s : JoinState) (before after : List Json),
      s.Collected select limit (joinPairs leftPath rightPath filter before rights) before.length →
      (after.foldl (JoinState.step index leftPath filter select limit) s).Collected select limit
        (joinPairs leftPath rightPath filter (before ++ after) rights) (before ++ after).length := by
    intro s before after
    induction after generalizing s before with
    | nil =>
      intro h
      rwa [List.append_nil]
    | cons left after ih =>
      intro h
      have hnext : (s.step index leftPath filter select limit left).Collected select limit
          (joinPairs leftPath rightPath filter (before ++ [left]) rights)
          (before ++ [left]).length := by
        have hstep := h.step hindex leftPath filter left
        rw [List.length_append, List.length_singleton]
        rwa [joinPairs, joinPairs, ← List.flatMap_append] at hstep
      have hrest := ih _ _ hnext
      rwa [List.append_assoc, List.singleton_append] at hrest
  exact h {} [] lefts ⟨by simp [joinPairs], by simp [joinPairs], rfl, rfl⟩

end Loops

/-! ### The join of two sources -/

/-- A join on keys that are given or detected is answered if the sources and its other arguments can be read, and gives
the pairs of the nested loops. -/
lemma exists_join_of_joinKeys {engine : Engine} {left right : Source} {options : JoinOptions} {keys : JoinKeys}
    {leftPath rightPath : Path} {filter : FilterSet} {select : List SideProjection} {lefts rights : List Json}
    (hkeys : engine.joinKeys left right options.leftKey options.rightKey = .ok keys)
    (hleftPath : Path.parse keys.left = .ok leftPath)
    (hrightPath : Path.parse keys.right = .ok rightPath)
    (hfilter : engine.pairFilter options.filter = .ok filter)
    (hselect : options.select.mapM SideProjection.parse = .ok select)
    (hlefts : left.elements engine.config.stream engine.directory = .ok lefts)
    (hrights : right.elements engine.config.stream engine.directory = .ok rights) :
    ∃ result, engine.join left right options = .ok result ∧
      (result.leftKey = keys.left ∧ result.rightKey = keys.right) ∧
      result.totalMatched = (joinPairs leftPath rightPath filter lefts rights).length ∧
      result.items = ((joinPairs leftPath rightPath filter lefts rights).take
          (options.limit.getD engine.config.query.defaultLimit)).map
        (fun pair => joinItem select pair.1 pair.2) ∧
      result.indexKeys = (rights.flatMap (joinKeys rightPath)).dedup.length ∧
      result.leftScanned = lefts.length ∧ result.rightScanned = rights.length := by
  have hindex := RightIndex.indexes_ofElements rightPath rights
  have hright : engine.rightIndex right rightPath = .ok (RightIndex.ofElements rightPath rights) := by
    rw [Engine.rightIndex, scan_eq_map_elements, hrights]
    rfl
  have hcollected := collected_foldl_step hindex leftPath filter select
    (options.limit.getD engine.config.query.defaultLimit) lefts
  unfold Engine.join
  rw [hfilter, hselect, hkeys]
  simp only [hleftPath, hrightPath, hright, scan_eq_map_elements, hlefts, Except.map, bind, Except.bind,
    pure, Except.pure]
  exact ⟨_, rfl, ⟨rfl, rfl⟩, hcollected.matched, hcollected.items, hindex.size_eq, hcollected.scanned,
    hindex.scanned⟩

/-- The join of two sources that can be read gives the pairs of the nested loops over their elements: it
counts all of them, and shows of the first ones up to the limit what the fields are that are asked for. It
counts the elements of either source and the distinct keys on the right. -/
theorem join_eq_joinPairs (engine : Engine) (left right : Source) (options : JoinOptions)
    (leftKey rightKey : String) (leftPath rightPath : Path) (filter : FilterSet)
    (select : List SideProjection) (lefts rights : List Json)
    (hleftKey : options.leftKey = some leftKey) (hrightKey : options.rightKey = some rightKey)
    (hleftPath : Path.parse leftKey = .ok leftPath)
    (hrightPath : Path.parse rightKey = .ok rightPath)
    (hfilter : engine.pairFilter options.filter = .ok filter)
    (hselect : options.select.mapM SideProjection.parse = .ok select)
    (hlefts : left.elements engine.config.stream engine.directory = .ok lefts)
    (hrights : right.elements engine.config.stream engine.directory = .ok rights) :
    ∃ result, engine.join left right options = .ok result ∧
      result.totalMatched = (joinPairs leftPath rightPath filter lefts rights).length ∧
      List.Forall₂ (fun pair item => IsItem pair.1 pair.2 options.select item)
        ((joinPairs leftPath rightPath filter lefts rights).take
          (options.limit.getD engine.config.query.defaultLimit)) result.items ∧
      result.indexKeys = (rights.flatMap (joinKeys rightPath)).dedup.length ∧
      result.leftScanned = lefts.length ∧ result.rightScanned = rights.length := by
  have hkeys : engine.joinKeys left right options.leftKey options.rightKey = .ok ⟨leftKey, rightKey, none⟩ := by
    rw [hleftKey, hrightKey]
    rfl
  obtain ⟨result, hjoin, -, hmatched, hitems, hcounts⟩ :=
    exists_join_of_joinKeys hkeys hleftPath hrightPath hfilter hselect hlefts hrights
  refine ⟨result, hjoin, hmatched, ?_, hcounts⟩
  rw [hitems, List.forall₂_map_right_iff, List.forall₂_same]
  exact fun pair _ => isItem_joinItem hselect pair.1 pair.2

/-- A file with the text `[[true,null],[true,true]]` and one with the text `[[true,null,true],[true,false]]`. -/
def twoLists : Directory :=
  ⟨[("a", [0x5b, 0x5b, 0x74, 0x72, 0x75, 0x65, 0x2c, 0x6e, 0x75, 0x6c, 0x6c, 0x5d, 0x2c,
      0x5b, 0x74, 0x72, 0x75, 0x65, 0x2c, 0x74, 0x72, 0x75, 0x65, 0x5d, 0x5d]),
    ("b", [0x5b, 0x5b, 0x74, 0x72, 0x75, 0x65, 0x2c, 0x6e, 0x75, 0x6c, 0x6c, 0x2c, 0x74, 0x72, 0x75, 0x65, 0x5d, 0x2c,
      0x5b, 0x74, 0x72, 0x75, 0x65, 0x2c, 0x66, 0x61, 0x6c, 0x73, 0x65, 0x5d, 0x5d])]⟩

lemma elements_twoLists :
    (Source.rootArray "a").elements {} twoLists =
        .ok [.array [.bool true, .null], .array [.bool true, .bool true]] ∧
      (Source.rootArray "b").elements {} twoLists =
        .ok [.array [.bool true, .null, .bool true], .array [.bool true, .bool false]] := by
  have hblank : IsBlank [] := by simp [IsBlank]
  have htrue : Derives [0x74, 0x72, 0x75, 0x65] (.element (.scalar (.bool true))) :=
    .element hblank (.scalar .true) hblank
  have hfalse : Derives [0x66, 0x61, 0x6c, 0x73, 0x65] (.element (.scalar (.bool false))) :=
    .element hblank (.scalar .false) hblank
  have hnull : Derives [0x6e, 0x75, 0x6c, 0x6c] (.element (.scalar .null)) :=
    .element hblank (.scalar .null) hblank
  have hitem : ∀ {bytes : List UInt8} {items : List Json.Document}, Derives bytes (.value (.array items)) →
      Derives bytes (.element (.array items)) := by
    intro bytes items h
    simpa using Derives.element hblank h hblank
  have hleft := hitem (.array (.item (hitem (.array (.item htrue (.lastItem hnull))))
    (.lastItem (hitem (.array (.item htrue (.lastItem htrue)))))))
  have hright := hitem (.array (.item (hitem (.array (.item htrue (.item hnull (.lastItem htrue)))))
    (.lastItem (hitem (.array (.item htrue (.lastItem hfalse)))))))
  exact ⟨Source.elements_of_isText (.rootArray "a") {} twoLists (by decide) hleft (by decide),
    Source.elements_of_isText (.rootArray "b") {} twoLists (by decide) hright (by decide)⟩

/-- The elements of the two files that have an item in common, if the second item of the one on the right is false.
A key that is repeated on the left counts each time, and one that is repeated on the right once. -/
def twoListsOptions : JoinOptions :=
  { leftKey := some "[*]", rightKey := some "[*]", select := [" b.[1] ", "a.[*]"], filter := some "b.[1] = false",
    limit := some 2 }

/-- A join of two files with repeated keys, a condition, fields of either side and less room than pairs. -/
theorem join_of_repeated_key :
    ∃ result, Engine.join ⟨{}, twoLists⟩ (.rootArray "a") (.rootArray "b") twoListsOptions = .ok result ∧
      result.totalMatched = 3 ∧
      result.items =
        [.object [("a.[*]", .array [.bool true, .null]), ("b.[1]", .bool false)],
          .object [("a.[*]", .array [.bool true, .bool true]), ("b.[1]", .bool false)]] ∧
      result.indexKeys = 2 ∧ result.leftScanned = 2 ∧ result.rightScanned = 2 := by
  obtain ⟨hlefts, hrights⟩ := elements_twoLists
  have hitems : Path.parse "[*]" = .ok ⟨"[*]", [.wildcard]⟩ :=
    Path.parse_of_scan (by decide) (by decide +kernel)
  have hsecond : Path.parse "[1]" = .ok ⟨"[1]", [.index 1]⟩ :=
    Path.parse_of_scan (by decide) (by decide +kernel)
  have hread : FilterSet.parse false true
      [String.ofList ['b', '.'] ++ "[1]" ++ " " ++ Operator.equal.symbol ++ " " ++ "false"] =
        .ok { conditions := [⟨.right, ⟨"[1]", [.index 1]⟩, .equal, .bool false⟩] } :=
    FilterSet.parse_spaced false Side.named_right hsecond (by decide +kernel) (by decide) (by decide) (by decide)
      (by decide)
  have hfilter : Engine.pairFilter ⟨{}, twoLists⟩ (some "b.[1] = false") =
      .ok { conditions := [⟨.right, ⟨"[1]", [.index 1]⟩, .equal, .bool false⟩] } := hread
  have hright : SideProjection.parse " b.[1] " = .ok ⟨"b.[1]", .right, ⟨"[1]", ⟨"[1]", [.index 1]⟩, false⟩⟩ :=
    SideProjection.parse_of_splitSide (by decide) (by decide)
      (Projection.parse_of_path (by decide) (by decide) hsecond)
  have hleft : SideProjection.parse "a.[*]" = .ok ⟨"a.[*]", .left, ⟨"[*]", ⟨"[*]", [.wildcard]⟩, false⟩⟩ :=
    SideProjection.parse_of_splitSide (by decide) (by decide)
      (Projection.parse_of_path (by decide) (by decide) hitems)
  have hselect : twoListsOptions.select.mapM SideProjection.parse = .ok
      [⟨"b.[1]", .right, ⟨"[1]", ⟨"[1]", [.index 1]⟩, false⟩⟩,
        ⟨"a.[*]", .left, ⟨"[*]", ⟨"[*]", [.wildcard]⟩, false⟩⟩] := by
    rw [twoListsOptions, List.mapM_cons, hright, List.mapM_cons, hleft]
    rfl
  obtain ⟨result, hjoin, hmatched, hshown, hkeys, hscanned⟩ := join_eq_joinPairs ⟨{}, twoLists⟩ (.rootArray "a")
    (.rootArray "b") twoListsOptions "[*]" "[*]" _ _ _ _ _ _ rfl rfl hitems hitems hfilter hselect hlefts hrights
  have hpairs : (joinPairs ⟨"[*]", [.wildcard]⟩ ⟨"[*]", [.wildcard]⟩
      { conditions := [⟨.right, ⟨"[1]", [.index 1]⟩, .equal, .bool false⟩] }
      [.array [.bool true, .null], .array [.bool true, .bool true]]
      [.array [.bool true, .null, .bool true], .array [.bool true, .bool false]]) =
      [(.array [.bool true, .null], .array [.bool true, .bool false]),
        (.array [.bool true, .bool true], .array [.bool true, .bool false]),
        (.array [.bool true, .bool true], .array [.bool true, .bool false])] := by
    rfl
  rw [hpairs] at hmatched hshown
  refine ⟨result, hjoin, hmatched, ?_, hkeys, hscanned⟩
  obtain ⟨items⟩ := result
  cases hshown with
  | cons hitem hrest =>
    cases hrest with
    | cons hitem' hrest =>
      cases hrest
      rw [hitem.unique (isItem_joinItem hselect _ _), hitem'.unique (isItem_joinItem hselect _ _)]
      rfl

end EntityDump
