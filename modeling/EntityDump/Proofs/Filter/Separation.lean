import EntityDump.Proofs.Filter.Conjunction
/-!
# A condition alone and in a set

A set reads its filter text condition by condition. A text without a separator means the same to it as
alone, and a text whose separators all stand outside quotes is read as what stands between them
(`parse_singleton`). A single condition is not cut at a separator, so a text can be one condition alone
and several in a set (`not_parse_singleton`).
-/

namespace EntityDump.FilterSet

open Text

variable (strict twoSided : Bool) {quote : Option Char} {s : List Char} {e : String}
  {conditions : List Condition}

/-! ### Separators outside quotes -/

/-- The quote that is open behind a character. -/
def nextQuote (quote : Option Char) (c : Char) : Option Char :=
  match quote with
  | some q => if c = q then none else some q
  | none => if Path.isQuote c then some c else none

/-- What stands between the separators that are outside quotes. -/
def conjuncts (quote : Option Char) : List Char → List (List Char)
  | [] => [[]]
  | [c] => [[c]]
  | c :: d :: rest =>
    if quote = none ∧ c = '&' ∧ d = '&' then [] :: conjuncts none rest
    else (conjuncts (nextQuote quote c) (d :: rest)).modifyHead (List.cons c)

/-- No separator of the text stands inside quotes. -/
def Unquoted (quote : Option Char) (s : List Char) : Prop :=
  ∀ before after, s = before ++ (separator ++ after) → before.foldl nextQuote quote = none

/-- No separator stands in quotes if none of its positions is behind an open quote. -/
lemma unquoted_iff :
    Unquoted quote s ↔
      ∀ n < s.length, separator <+: s.drop n → (s.take n).foldl nextQuote quote = none := by
  constructor
  · rintro h n - ⟨after, hafter⟩
    exact h (s.take n) after (by rw [hafter, List.take_append_drop])
  · rintro h before after rfl
    have hhere : separator <+: (before ++ (separator ++ after)).drop before.length := by
      rw [List.drop_left]
      exact List.prefix_append separator after
    have hlength : before.length < (before ++ (separator ++ after)).length := by
      simp [separator]
    have hquote := h before.length hlength hhere
    rwa [List.take_left] at hquote

instance : Decidable (Unquoted quote s) :=
  decidable_of_iff _ unquoted_iff.symm

/-- Where no separator stands inside quotes it makes no difference whether quotes are heeded. -/
lemma conjuncts_eq_splitAll (h : Unquoted quote s) : conjuncts quote s = splitAll separator s := by
  have hsep : separator ≠ [] := by decide
  induction quote, s using conjuncts.induct with
  | case1 quote => rfl
  | case2 quote c =>
    have hnone : find? separator [c] = none := by
      refine find?_eq_none_iff.2 fun hword => ?_
      exact absurd hword.length_le (by simp [separator])
    rw [conjuncts, splitAll_of_find?_eq_none hnone]
  | case3 quote c d rest hcut ih =>
    obtain ⟨rfl, rfl, rfl⟩ := hcut
    have hrest : Unquoted none rest := by
      intro before after hsplit
      exact h ('&' :: '&' :: before) after (by rw [hsplit]; rfl)
    rw [conjuncts, if_pos ⟨rfl, rfl, rfl⟩, ih hrest]
    exact (splitAll_append_left hsep rest).symm
  | case4 quote c d rest hcut ih =>
    have hrest : Unquoted (nextQuote quote c) (d :: rest) := by
      intro before after hsplit
      exact h (c :: before) after (by rw [hsplit]; rfl)
    -- a separator at this place would be one inside quotes
    have hhere : ¬ separator <+: c :: d :: rest := by
      rintro ⟨after, hafter⟩
      have hquote : quote = none := h [] after hafter.symm
      simp only [separator, List.cons_append, List.nil_append, List.cons.injEq] at hafter
      exact hcut ⟨hquote, hafter.1.symm, hafter.2.1.symm⟩
    rw [conjuncts, if_neg hcut, ih hrest, splitAll_cons_of_not_isPrefix hsep hhere]

/-! ### Texts of which each part is a condition -/

/-- Texts that are blank or conditions add these conditions and leave nothing out. -/
lemma foldlM_addPart_of_mapM {texts : List (List Char)}
    (h : (texts.filter fun part => !(trim part).isEmpty).mapM (Condition.parseChars? twoSided) =
      some conditions) :
    texts.foldlM (addPart strict twoSided) {} = .ok { conditions := conditions } := by
  induction texts generalizing conditions with
  | nil =>
    obtain rfl : [] = conditions := by simpa using h
    rfl
  | cons text texts ih =>
    rw [List.foldlM_cons]
    by_cases hblank : (trim text).isEmpty = true
    · rw [List.filter_cons_of_neg (by simp [hblank])] at h
      have hadd : addPart strict twoSided {} text = .ok {} := by rw [addPart, if_pos hblank]
      rw [hadd]
      exact ih h
    · rw [List.filter_cons_of_pos (by simpa using hblank), List.mapM_cons] at h
      obtain ⟨c, hc, h⟩ := Option.bind_eq_some_iff.1 h
      obtain ⟨others, hothers, h⟩ := Option.bind_eq_some_iff.1 h
      obtain rfl : c :: others = conditions := Option.some.inj h
      have hadd : addPart strict twoSided {} text = .ok { conditions := [c] } := by
        rw [addPart, if_neg hblank, resolve, hc]
        rfl
      rw [hadd]
      show texts.foldlM (addPart strict twoSided) { conditions := [c] } = _
      rw [foldlM_addPart, ih hothers]
      rfl

/-- A condition is not read from blanks. -/
lemma not_isEmpty_trim_of_parseChars? {c : Condition} (h : Condition.parseChars? twoSided s = some c) :
    (trim s).isEmpty = false := by
  cases htrim : trim s with
  | nil =>
    rw [Condition.parseChars?, htrim] at h
    have hnone : (Operator.all.findSome? (Condition.parseAround? twoSided [])).join = none := by
      cases twoSided <;> rfl
    rw [hnone] at h
    contradiction
  | cons d rest => rfl

/-- A filter text without a separator that is a condition alone is this condition in a set. A text whose
separators all stand outside quotes gives the conditions that stand between them, if each text there is
one or blank. In neither case is a text left out, and none is refused. -/
theorem parse_singleton (e : String) :
    (∀ c, ¬ separator <:+: e.toList → Condition.parse? twoSided e = some c →
      parse strict twoSided [e] = .ok { conditions := [c] }) ∧
    ∀ conditions, Unquoted none e.toList →
      ((conjuncts none e.toList).filter fun part => !(trim part).isEmpty).mapM
          (Condition.parseChars? twoSided) = some conditions →
      parse strict twoSided [e] = .ok { conditions := conditions } := by
  have hparse : parse strict twoSided [e] =
      (splitAll separator e.toList).foldlM (addPart strict twoSided) {} := by
    rw [parse, List.flatMap_singleton]
  constructor
  · intro c habsent hc
    have hsplit : splitAll separator e.toList = [e.toList] :=
      splitAll_of_find?_eq_none (find?_eq_none_iff.2 habsent)
    have hfilled := not_isEmpty_trim_of_parseChars? twoSided hc
    rw [hparse, hsplit]
    refine foldlM_addPart_of_mapM strict twoSided ?_
    have hc : Condition.parseChars? twoSided e.toList = some c := hc
    simp [hfilled, hc]
  · intro conditions hunquoted hconditions
    rw [conjuncts_eq_splitAll hunquoted] at hconditions
    rw [hparse]
    exact foldlM_addPart_of_mapM strict twoSided hconditions

/-- A text with a single condition, and one with two of which the first ends in a quoted literal. -/
theorem parse_singleton_of_quoted_literal :
    (∃ c, Condition.parse? false "level >= 10" = some c ∧
      parse true false ["level >= 10"] = .ok { conditions := [c] }) ∧
    ∃ c d, Condition.parse? false "name = 'x' " = some c ∧ Condition.parse? false " level > 1" = some d ∧
      parse true false ["name = 'x' && level > 1"] = .ok { conditions := [c, d] } := by
  constructor
  · obtain ⟨c, hc⟩ : ∃ c, Condition.parse? false "level >= 10" = some c :=
      Option.isSome_iff_exists.1 (by decide +kernel)
    exact ⟨c, hc, (parse_singleton true false "level >= 10").1 c (by decide) hc⟩
  · obtain ⟨c, hc⟩ : ∃ c, Condition.parse? false "name = 'x' " = some c :=
      Option.isSome_iff_exists.1 (by decide +kernel)
    obtain ⟨d, hd⟩ : ∃ d, Condition.parse? false " level > 1" = some d :=
      Option.isSome_iff_exists.1 (by decide +kernel)
    refine ⟨c, d, hc, hd, ?_⟩
    refine (parse_singleton true false "name = 'x' && level > 1").2 [c, d] ?_ ?_
    · decide +kernel
    · have hconjuncts : (conjuncts none "name = 'x' && level > 1".toList).filter
          (fun part => !(trim part).isEmpty) = ["name = 'x' ".toList, " level > 1".toList] := by decide +kernel
      have hc : Condition.parseChars? false "name = 'x' ".toList = some c := hc
      have hd : Condition.parseChars? false " level > 1".toList = some d := hd
      rw [hconjuncts]
      simp only [List.mapM_cons, hc, hd, List.mapM_nil]
      rfl

/-- Alone the text is one condition, whose literal holds the separator. In a set it is two. -/
theorem not_parse_singleton :
    ¬ ∀ (strict twoSided : Bool) (e : String) (c : Condition), Condition.parse? twoSided e = some c →
      parse strict twoSided [e] = .ok { conditions := [c] } := by
  intro h
  obtain ⟨c, hc⟩ : ∃ c, Condition.parse? false "a = 1 && b = 2" = some c :=
    Option.isSome_iff_exists.1 (by decide +kernel)
  have hset := h false false "a = 1 && b = 2" c hc
  have htwo : (parse false false ["a = 1 && b = 2"]).toOption.map (fun set => set.conditions.length) =
      some 2 := by decide +kernel
  rw [hset] at htwo
  have hone : 1 = 2 := Option.some.inj htwo
  exact absurd hone (by decide)

end EntityDump.FilterSet
