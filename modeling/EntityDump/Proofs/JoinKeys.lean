import EntityDump.Proofs.DetectedJoin
import EntityDump.Proofs.Query.Agreement
import EntityDump.Proofs.Relationship.Inference
import EntityDump.Proofs.WholeAnswers
/-!
# One search for the keys of a join

Keys that are not given are searched among the relationships of the usual coverage, and if there are none among those
of the relaxed one. For settings in range the first list is the beginning of the second, since the relationships are
listed by descending coverage. So the second search alone finds the same keys (`JoinKeys.detect?_eq_best?`), and a
join takes them from there (`Engine.joinKeys_eq_relaxed`).

A join fails for want of a relationship only when the keys are searched, since all other errors are of another kind
(`Engine.join_eq_error_iff`). This gives `Engine.join_searches_relaxed`.
-/

namespace EntityDump

open Json.Grammar (Derives IsBlank IsChars IsDigit IsDigits IsNumber IsNumberOf IsStringOf)

/-! ### Settings in range -/

/-- A percentage is a number. -/
lemma Config.isNaN_of_checkPercentage {value : Float} {name : String}
    (h : checkPercentage value name = .ok ()) : value.isNaN = false := by
  unfold checkPercentage at h
  split at h
  · next hrange =>
    rw [Bool.and_eq_true, decide_eq_true_iff] at hrange
    exact (Numeric.isNaN_of_le hrange.1).2
  · cases h

/-- The relaxed coverage is not above the usual one. -/
lemma InferenceConfig.relaxedCoverage_le {config : InferenceConfig} (h : config.validate = .ok ()) :
    config.relaxedCoverage ≤ config.minCoverage := by
  unfold InferenceConfig.validate at h
  obtain ⟨_, hmin, h⟩ := Engine.exists_of_bind_eq_ok h
  obtain ⟨_, hrelaxed, h⟩ := Engine.exists_of_bind_eq_ok h
  have hnumberMin := Config.isNaN_of_checkPercentage hmin
  have hnumberRelaxed := Config.isNaN_of_checkPercentage hrelaxed
  rw [Numeric.le_iff_rank_le hnumberRelaxed hnumberMin, ← not_lt,
    ← Numeric.lt_iff_rank_lt hnumberMin hnumberRelaxed]
  intro hlt
  rw [if_pos hlt] at h
  cases h

/-- Valid settings are valid for the search of relationships. -/
lemma EngineConfig.validate_inference {config : EngineConfig} (h : config.validate = .ok ()) :
    config.inference.validate = .ok () := by
  unfold EngineConfig.validate at h
  obtain ⟨_, -, h⟩ := Engine.exists_of_bind_eq_ok h
  obtain ⟨_, -, h⟩ := Engine.exists_of_bind_eq_ok h
  exact h

/-! ### The search -/

/-- Where the entries that pass stand before the others, the first hit among them is the first of all. -/
lemma find?_of_find?_filter {α : Type} {p q : α → Bool} {list : List α} {a : α}
    (hfirst : list.Pairwise fun a b => p b = true → p a = true) (h : (list.filter p).find? q = some a) :
    list.find? q = some a := by
  induction list with
  | nil => cases h
  | cons b list ih =>
    obtain ⟨hbefore, hfirst⟩ := List.pairwise_cons.1 hfirst
    by_cases hb : p b = true
    · rw [List.filter_cons_of_pos hb, List.find?_cons] at h
      rw [List.find?_cons]
      split
      · next hhit => rwa [hhit] at h
      · next hmiss =>
        rw [hmiss] at h
        exact ih hfirst h
    · -- Nothing behind an entry that does not pass passes.
      have hnone : ∀ c ∈ list, ¬ p c = true := fun c hc => mt (hbefore c hc) hb
      rw [List.filter_cons_of_neg hb, List.filter_eq_nil_iff.2 hnone] at h
      cases h

/-- A relationship that is listed later has no higher coverage. -/
lemma Relationship.Before.coverage_le {a b : Relationship} (h : a.Before b) (ha : a.coverage.isNaN = false)
    (hb : b.coverage.isNaN = false) : b.coverage ≤ a.coverage := by
  obtain hlt | ⟨heq, -⟩ := h
  · exact Numeric.le_of_lt hlt
  · rw [Numeric.le_iff_rank_le hb ha, (Numeric.beq_iff_rank_eq ha hb).1 heq]

/-- The relationships of the usual coverage are the first of those of the relaxed one, so that a search among the
latter finds what two searches find. -/
theorem JoinKeys.detect?_eq_best? {config : InferenceConfig} (hvalid : config.validate = .ok ()) {lefts : List Json}
    (hsize : ∀ field ∈ (Inventory.ofElements lefts).fields, field.distinctValues < 2 ^ 64) (rights : List Json)
    (sameSource : Bool) (leftKey rightKey : Option String) :
    detect? config (.ofElements lefts) (.ofElements rights) sameSource leftKey rightKey =
      best? (.ofElements lefts) (.ofElements rights) sameSource leftKey rightKey config.relaxedCoverage := by
  have hle := InferenceConfig.relaxedCoverage_le hvalid
  let list := inferRelationships (.ofElements lefts) (.ofElements rights) config.relaxedCoverage sameSource
  have hfirst : list.Pairwise fun a b =>
      (!(b.coverage < config.minCoverage)) = true → (!(a.coverage < config.minCoverage)) = true := by
    apply (pairwise_before_inferRelationships hsize rights config.relaxedCoverage sameSource).imp_of_mem
    intro a b ha hb hbefore
    simp only [Bool.not_eq_true', decide_eq_false_iff_not]
    have hcoverage := hbefore.coverage_le (isNaN_of_mem_inferRelationships hsize ha)
      (isNaN_of_mem_inferRelationships hsize hb)
    exact mt (Numeric.lt_of_le_of_lt hcoverage)
  unfold detect?
  cases hbest : best? (.ofElements lefts) (.ofElements rights) sameSource leftKey rightKey config.minCoverage with
  | none => rfl
  | some best =>
    rw [best?, inferRelationships_filter hsize rights hle] at hbest
    exact (find?_of_find?_filter hfirst hbest).symm

namespace Engine

variable {engine : Engine} {left right : Source} {options : JoinOptions}

/-- The relationships of two sources of at least the relaxed coverage. -/
def relaxedRelationships (engine : Engine) (left right : Source) : Except Error (List Relationship) := do
  let leftFields ← engine.idFields left
  let rightFields ← engine.idFields right
  return inferRelationships leftFields rightFields engine.config.inference.relaxedCoverage (left.same right)

/-- The keys of the first relationship that agrees with the given keys. -/
def firstKeys (left right : Source) (leftKey rightKey : Option String) (list : List Relationship) :
    Except Error JoinKeys :=
  match list.find? (JoinKeys.agrees leftKey rightKey) with
  | some rel => .ok ⟨rel.leftPath, rel.rightPath, some rel.coverage⟩
  | none => .error (.noRelationship left.path right.path)

section First

variable {leftKey rightKey : Option String} {list : List Relationship}

/-- Keys come from the first relationship that agrees with those that are given. -/
lemma firstKeys_eq_ok_iff {keys : JoinKeys} : firstKeys left right leftKey rightKey list = .ok keys ↔
    ∃ rel, list.find? (JoinKeys.agrees leftKey rightKey) = some rel ∧
      keys = ⟨rel.leftPath, rel.rightPath, some rel.coverage⟩ := by
  unfold firstKeys
  split
  · next rel hrel => simp [hrel, eq_comm]
  · next hnone => simp [hnone]

/-- No keys are found exactly if no relationship agrees with those that are given. -/
lemma firstKeys_eq_error_iff :
    firstKeys left right leftKey rightKey list = .error (.noRelationship left.path right.path) ↔
      ∀ rel ∈ list, ¬ JoinKeys.agrees leftKey rightKey rel := by
  rw [← List.find?_eq_none]
  unfold firstKeys
  split
  · next rel hrel => simp [hrel]
  · next hnone => simp [hnone]

end First

/-- The id fields of a source are those of its elements, if it can be read. -/
lemma idFields_cases (engine : Engine) (source : Source) :
    (∃ e, engine.idFields source = .error e) ∨
      ∃ elements, source.elements engine.config.stream engine.directory = .ok elements ∧
        engine.idFields source = .ok (.ofElements elements) := by
  cases helements : source.elements engine.config.stream engine.directory with
  | error e =>
    left
    refine ⟨e, ?_⟩
    rw [idFields, scan_eq_map_elements, helements]
    rfl
  | ok elements => exact .inr ⟨elements, rfl, idFields_eq helements⟩

/-- Keys of which one is not given are those of the first relationship of the relaxed coverage that agrees. -/
theorem joinKeys_eq_relaxed (hvalid : engine.config.validate = .ok ()) {leftKey rightKey : Option String}
    (homitted : leftKey = none ∨ rightKey = none)
    (hsize : ∀ elements, left.elements engine.config.stream engine.directory = .ok elements →
      ∀ field ∈ (Inventory.ofElements elements).fields, field.distinctValues < 2 ^ 64) :
    engine.joinKeys left right leftKey rightKey =
      engine.relaxedRelationships left right >>= firstKeys left right leftKey rightKey := by
  -- With a key left out, the keys are detected.
  have hdetect : engine.joinKeys left right leftKey rightKey = (do
      let leftFields ← engine.idFields left
      let rightFields ← engine.idFields right
      match JoinKeys.detect? engine.config.inference leftFields rightFields (left.same right) leftKey rightKey with
      | some best => return ⟨best.leftPath, best.rightPath, some best.coverage⟩
      | none => throw (.noRelationship left.path right.path)) := by
    unfold joinKeys
    split
    · simp at homitted
    · rfl
  rw [hdetect, relaxedRelationships, bind_assoc]
  obtain ⟨e, hleft⟩ | ⟨lefts, hlefts, hleft⟩ := engine.idFields_cases left
  · rw [hleft]
    rfl
  obtain ⟨e, hright⟩ | ⟨rights, -, hright⟩ := engine.idFields_cases right
  · rw [hleft, hright]
    rfl
  have hsearch := JoinKeys.detect?_eq_best? (EngineConfig.validate_inference hvalid) (hsize lefts hlefts) rights
    (left.same right) leftKey rightKey
  rw [hleft, hright]
  dsimp only [bind, Except.bind]
  rw [hsearch]
  rfl

/-! ### Errors of other kinds -/

/-- Of two steps the first fails, or it gives a result and the second fails on it. -/
lemma of_bind_eq_error {ε α β : Type} {first : Except ε α} {next : α → Except ε β} {e : ε}
    (h : first >>= next = .error e) : first = .error e ∨ ∃ a, first = .ok a ∧ next a = .error e := by
  cases first with
  | error e' => exact .inl (congrArg Except.error (Except.error.inj h))
  | ok a => exact .inr ⟨a, rfl, h⟩

variable {e : Error}

/-- A refusal of an argument is not about something that was not found. -/
lemma Refuses.kind_ne_notFound (h : engine.Refuses e) : e.kind ≠ .notFound := by
  rw [h.kind]
  nofun

/-- A filter of pairs that cannot be read is refused. -/
lemma refuses_of_pairFilter {expression : Option String} (h : engine.pairFilter expression = .error e) :
    engine.Refuses e := by
  obtain ⟨hstrict, text, rfl⟩ := exists_of_parse_eq_error h
  exact ⟨rfl, fun _ _ => hstrict⟩

/-- Fields to select that cannot be read are refused. -/
lemma refuses_of_select {fields : List String} (h : fields.mapM SideProjection.parse = .error e) :
    engine.Refuses e := by
  rw [← refusal?_eq_some_iff, refusal?_mapM] at h
  obtain ⟨refusal, hrefusal, rfl⟩ := List.exists_of_findSome?_eq_some h
  obtain ⟨field, -, hfield⟩ := List.mem_map.1 hrefusal
  obtain hprojection | ⟨_, -, hnone⟩ := of_bind_eq_error (refusal?_eq_some_iff.1 hfield)
  · exact refuses_of_field hprojection
  · cases hnone

/-- A source that cannot be read lacks its file, or the file is malformed. -/
lemma kind_ne_notFound_of_scan {σ : Type} {source : Source} {step : σ → Json → σ} {init : σ}
    (h : engine.scan source step init = .error e) : e.kind ≠ .notFound := by
  unfold scan Source.fold Reading.foldFile at h
  split at h
  · obtain rfl := Except.error.inj h
    nofun
  · split at h
    · cases h
    · obtain rfl := Except.error.inj h
      nofun

/-- A search for relationships does not fail for want of one. -/
lemma kind_ne_notFound_of_relaxedRelationships (h : engine.relaxedRelationships left right = .error e) :
    e.kind ≠ .notFound := by
  unfold relaxedRelationships at h
  obtain hleft | ⟨_, -, h⟩ := of_bind_eq_error h
  · exact kind_ne_notFound_of_scan hleft
  obtain hright | ⟨_, -, h⟩ := of_bind_eq_error h
  · exact kind_ne_notFound_of_scan hright
  · cases h

/-- The search fails for want of a relationship if the sources can be read and none agrees. -/
lemma search_eq_error_iff {leftKey rightKey : Option String} :
    engine.relaxedRelationships left right >>= firstKeys left right leftKey rightKey =
        .error (.noRelationship left.path right.path) ↔
      ∃ list, engine.relaxedRelationships left right = .ok list ∧
        ∀ rel ∈ list, ¬ JoinKeys.agrees leftKey rightKey rel := by
  constructor
  · intro hkeys
    obtain hread | ⟨list, hlist, hkeys⟩ := of_bind_eq_error hkeys
    · exact absurd rfl (kind_ne_notFound_of_relaxedRelationships hread)
    · exact ⟨list, hlist, firstKeys_eq_error_iff.1 hkeys⟩
  · rintro ⟨list, hlist, hkeys⟩
    rw [hlist]
    exact firstKeys_eq_error_iff.2 hkeys

/-- A join that is answered has its keys from the search. -/
lemma joinKeys_of_join_eq_ok {result : JoinResult} (h : engine.join left right options = .ok result) :
    ∃ keys, engine.joinKeys left right options.leftKey options.rightKey = .ok keys ∧
      result.leftKey = keys.left ∧ result.rightKey = keys.right ∧ result.coverage = keys.coverage := by
  unfold join at h
  obtain ⟨_, -, h⟩ := exists_of_bind_eq_ok h
  obtain ⟨_, -, h⟩ := exists_of_bind_eq_ok h
  obtain ⟨keys, hkeys, h⟩ := exists_of_bind_eq_ok h
  obtain ⟨_, -, h⟩ := exists_of_bind_eq_ok h
  obtain ⟨_, -, h⟩ := exists_of_bind_eq_ok h
  obtain ⟨_, -, h⟩ := exists_of_bind_eq_ok h
  obtain ⟨_, -, h⟩ := exists_of_bind_eq_ok h
  obtain rfl := Except.ok.inj h
  exact ⟨keys, hkeys, rfl, rfl, rfl⟩

/-- A join does not find a relationship only when its keys are searched. -/
lemma join_eq_error_iff (hkind : e.kind = .notFound) : engine.join left right options = .error e ↔
    (∃ filter, engine.pairFilter options.filter = .ok filter) ∧
      (∃ select, options.select.mapM SideProjection.parse = .ok select) ∧
      engine.joinKeys left right options.leftKey options.rightKey = .error e := by
  unfold join
  constructor
  · intro h
    have hpath : ∀ {expression}, ¬ Path.parse expression = .error e := by
      intro expression hparse
      have hrefuses : engine.Refuses e := refuses_of_path hparse
      exact hrefuses.kind_ne_notFound hkind
    -- The steps before and behind the search fail for reasons of other kinds.
    obtain hfilter | ⟨filter, hfilter, h⟩ := of_bind_eq_error h
    · exact absurd hkind (refuses_of_pairFilter hfilter).kind_ne_notFound
    obtain hselect | ⟨select, hselect, h⟩ := of_bind_eq_error h
    · have hrefuses : engine.Refuses e := refuses_of_select hselect
      exact absurd hkind hrefuses.kind_ne_notFound
    obtain hkeys | ⟨keys, -, h⟩ := of_bind_eq_error h
    · exact ⟨⟨filter, hfilter⟩, ⟨select, hselect⟩, hkeys⟩
    obtain hleft | ⟨_, -, h⟩ := of_bind_eq_error h
    · exact absurd hleft hpath
    obtain hright | ⟨_, -, h⟩ := of_bind_eq_error h
    · exact absurd hright hpath
    obtain hindex | ⟨_, -, h⟩ := of_bind_eq_error h
    · exact absurd hkind (kind_ne_notFound_of_scan hindex)
    obtain hscan | ⟨_, -, h⟩ := of_bind_eq_error h
    · exact absurd hkind (kind_ne_notFound_of_scan hscan)
    · cases h
  · rintro ⟨⟨filter, hfilter⟩, ⟨select, hselect⟩, hkeys⟩
    rw [hfilter, hselect, hkeys]
    rfl

/-- A join of which a key is not given takes the keys and the coverage of the first relationship of the relaxed coverage
that agrees with what is given. It fails for want of a relationship exactly if the sources can be read, no other
argument is refused, and none of these relationships agrees. The settings are in range, and the values of a field can
be counted in 64 bits. -/
theorem join_searches_relaxed (engine : Engine) (left right : Source) (options : JoinOptions)
    (hvalid : engine.config.validate = .ok ())
    (homitted : options.leftKey = none ∨ options.rightKey = none)
    (hsize : ∀ elements, left.elements engine.config.stream engine.directory = .ok elements →
      ∀ field ∈ (Inventory.ofElements elements).fields, field.distinctValues < 2 ^ 64) :
    let search := engine.relaxedRelationships left right
    let agrees := JoinKeys.agrees options.leftKey options.rightKey
    engine.joinKeys left right options.leftKey options.rightKey =
      search >>= firstKeys left right options.leftKey options.rightKey ∧
    (∀ result, engine.join left right options = .ok result → ∃ list rel,
      search = .ok list ∧ list.find? agrees = some rel ∧
      result.leftKey = rel.leftPath ∧ result.rightKey = rel.rightPath ∧ result.coverage = some rel.coverage) ∧
    (engine.join left right options = .error (.noRelationship left.path right.path) ↔
      (∃ filter, engine.pairFilter options.filter = .ok filter) ∧
      (∃ select, options.select.mapM SideProjection.parse = .ok select) ∧
      ∃ list, search = .ok list ∧ ∀ rel ∈ list, ¬ agrees rel) := by
  intro search agrees
  have hsearch : engine.joinKeys left right options.leftKey options.rightKey =
      engine.relaxedRelationships left right >>= firstKeys left right options.leftKey options.rightKey :=
    joinKeys_eq_relaxed hvalid homitted hsize
  refine ⟨hsearch, ?_, ?_⟩
  · intro result hjoin
    obtain ⟨keys, hkeys, hresult⟩ := joinKeys_of_join_eq_ok hjoin
    rw [hsearch] at hkeys
    obtain ⟨list, hlist, hkeys⟩ := exists_of_bind_eq_ok hkeys
    obtain ⟨rel, hrel, rfl⟩ := firstKeys_eq_ok_iff.1 hkeys
    exact ⟨list, rel, hlist, hrel, hresult⟩
  · rw [join_eq_error_iff rfl, hsearch, search_eq_error_iff]

end Engine

/-- Two files with the texts `[{"id":1},{"id":2},{"id":3},{"id":4},{"id":5}]` and `[{"id":1}]`. -/
def fifthShared : Directory :=
  ⟨[("a", [0x5b, 0x7b, 0x22, 0x69, 0x64, 0x22, 0x3a, 0x31, 0x7d, 0x2c, 0x7b, 0x22, 0x69, 0x64, 0x22, 0x3a, 0x32, 0x7d,
      0x2c, 0x7b, 0x22, 0x69, 0x64, 0x22, 0x3a, 0x33, 0x7d, 0x2c, 0x7b, 0x22, 0x69, 0x64, 0x22, 0x3a, 0x34, 0x7d, 0x2c,
      0x7b, 0x22, 0x69, 0x64, 0x22, 0x3a, 0x35, 0x7d, 0x5d]),
    ("b", [0x5b, 0x7b, 0x22, 0x69, 0x64, 0x22, 0x3a, 0x31, 0x7d, 0x5d])]⟩

/-- Elements with these numbers as their ids. -/
def numberedIds (numbers : List ℤ) : List Json :=
  numbers.map fun n => .object [("id", .number (.int n))]

lemma elements_fifthShared :
    (Source.rootArray "a").elements {} fifthShared = .ok (numberedIds [1, 2, 3, 4, 5]) ∧
      (Source.rootArray "b").elements {} fifthShared = .ok (numberedIds [1]) := by
  have hblank : IsBlank [] := by simp [IsBlank]
  have hname : IsChars [0x69, 0x64] :=
    .unescaped (c := 'i') (by decide) (by decide) (by decide) <|
      .unescaped (c := 'd') (by decide) (by decide) (by decide) .nil
  have hkey : IsStringOf [0x22, 0x69, 0x64, 0x22] "id" := ⟨.mk hname, by decide⟩
  have hnumber : ∀ b, IsDigit b → IsNumber [b] := fun b hdigit =>
    have hdigits : IsDigits [b] := ⟨List.cons_ne_nil b [], fun c hc => List.mem_singleton.1 hc ▸ hdigit⟩
    .mk (.inl rfl) ⟨hdigits, fun _ => rfl⟩ .absent .absent
  have hitem : ∀ b n, IsDigit b → Json.Number.decode? [Char.ofNat b.toNat] = some (.int n) →
      Derives [0x7b, 0x22, 0x69, 0x64, 0x22, 0x3a, b, 0x7d]
        (.element (.object [("id", .scalar (.number (.int n)))])) := by
    intro b n hdigit hdecode
    have hvalue : Derives [b] (.element (.scalar (.number (.int n)))) :=
      .element hblank (.scalar (.number ⟨hnumber b hdigit, hdecode⟩)) hblank
    exact .element hblank (.object (.lastField (.member hblank hkey hblank hvalue))) hblank
  have hone := hitem 0x31 1 ⟨by decide, by decide⟩ rfl
  have htwo := hitem 0x32 2 ⟨by decide, by decide⟩ rfl
  have hthree := hitem 0x33 3 ⟨by decide, by decide⟩ rfl
  have hfour := hitem 0x34 4 ⟨by decide, by decide⟩ rfl
  have hfive := hitem 0x35 5 ⟨by decide, by decide⟩ rfl
  constructor
  · exact Source.elements_of_isText (.rootArray "a") {} fifthShared (by decide)
      (.element hblank (.array (.item hone (.item htwo (.item hthree (.item hfour (.lastItem hfive)))))) hblank)
      (by decide)
  · exact Source.elements_of_isText (.rootArray "b") {} fifthShared (by decide)
      (.element hblank (.array (.lastItem hone)) hblank) (by decide)

/-- Of five ids on the left the right side has one. This is less than the usual coverage, and more than the
relaxed one. -/
theorem join_searches_relaxed_of_fifth :
    ∃ keys, Engine.joinKeys ⟨{}, fifthShared⟩ (.rootArray "a") (.rootArray "b") none none = .ok keys ∧
      keys.left = "id" ∧ keys.right = "id" ∧ keys.coverage.any fun coverage => 10.0 ≤ coverage && coverage < 30.0 := by
  obtain ⟨hlefts, hrights⟩ := elements_fifthShared
  have hsize : ∀ elements, (Source.rootArray "a").elements {} fifthShared = .ok elements →
      ∀ field ∈ (Inventory.ofElements elements).fields, field.distinctValues < 2 ^ 64 := by
    intro elements helements
    obtain rfl : numberedIds [1, 2, 3, 4, 5] = elements := Except.ok.inj (hlefts.symm.trans helements)
    decide +kernel
  obtain ⟨hkeys, -⟩ := Engine.join_searches_relaxed ⟨{}, fifthShared⟩ (.rootArray "a") (.rootArray "b") {} rfl
    (.inl rfl) hsize
  have hsearch : Engine.relaxedRelationships ⟨{}, fifthShared⟩ (.rootArray "a") (.rootArray "b") =
      .ok (inferRelationships (.ofElements (numberedIds [1, 2, 3, 4, 5])) (.ofElements (numberedIds [1])) 10.0
        ((Source.rootArray "a").same (.rootArray "b"))) := by
    rw [Engine.relaxedRelationships, idFields_eq hlefts, idFields_eq hrights]
    rfl
  have hfirst : ((inferRelationships (.ofElements (numberedIds [1, 2, 3, 4, 5])) (.ofElements (numberedIds [1])) 10.0
      ((Source.rootArray "a").same (.rootArray "b"))).find? (JoinKeys.agrees none none)).any fun rel =>
        rel.leftPath = "id" ∧ rel.rightPath = "id" ∧ 10.0 ≤ rel.coverage ∧ rel.coverage < 30.0 := by decide +kernel
  obtain ⟨rel, hrel, hnumbers⟩ := (Option.any_eq_true _ _).1 hfirst
  obtain ⟨hleft, hright, hcoverage⟩ := of_decide_eq_true hnumbers
  refine ⟨⟨rel.leftPath, rel.rightPath, some rel.coverage⟩, ?_, hleft, hright, ?_⟩
  · rw [hsearch] at hkeys
    exact hkeys.trans (Engine.firstKeys_eq_ok_iff.2 ⟨rel, hrel, rfl⟩)
  · simpa using hcoverage

end EntityDump
