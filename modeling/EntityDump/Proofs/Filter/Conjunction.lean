import EntityDump.Proofs.Text.Split
import EntityDump.Scan
/-!
# Filters joined by double ampersands

A scan writes its filters and the one of a request as a single expression, with the separator between
blanks. Read as a set of conditions, the parts of that expression are the parts of the single filters in
order, so it gives what the filters give one after another (`parse_filterWith`).
-/

namespace EntityDump

open Text

namespace FilterSet

variable (strict twoSided : Bool) {set : FilterSet} {e : String} {expressions : List String}

/-- The texts between the separators, without blanks at their ends. -/
def parts (s : List Char) : List (List Char) :=
  (splitAll separator s).map trim

/-- The conditions of two sets, and the texts that either left out. -/
def append (first second : FilterSet) : FilterSet :=
  ⟨first.conditions ++ second.conditions, first.ignored ++ second.ignored⟩

/-- The conditions of some sets in order, and the texts that they left out in order. -/
def concat (sets : List FilterSet) : FilterSet :=
  ⟨sets.flatMap conditions, sets.flatMap ignored⟩

/-! ### Joining sets -/

/-- Several sets together accept what each of them accepts. -/
lemma accepts_concat (sets : List FilterSet) (value : Json) :
    (concat sets).accepts value = sets.all fun set => set.accepts value := by
  simp only [concat, accepts, List.all_flatMap]

/-- Several sets together accept the pairs that each of them accepts. -/
lemma acceptsPair_concat (sets : List FilterSet) (left right : Json) :
    (concat sets).acceptsPair left right = sets.all fun set => set.acceptsPair left right := by
  simp only [concat, acceptsPair, List.all_flatMap]

lemma append_assoc (a b c : FilterSet) : append (append a b) c = append a (append b c) := by
  simp [append]

/-! ### Adding parts -/

/-- Blanks at the ends of a part count for nothing. -/
lemma addPart_trim (set : FilterSet) (part : List Char) :
    addPart strict twoSided set (trim part) = addPart strict twoSided set part := by
  unfold addPart resolve Condition.parseChars?
  rw [trim_trim]

/-- What a part adds does not depend on the set to which it is added. -/
lemma addPart_eq (set : FilterSet) (part : List Char) :
    addPart strict twoSided set part = (addPart strict twoSided {} part).map (append set) := by
  unfold addPart
  split
  · simp [Except.map, append]
  · rcases resolve strict twoSided part with e | _ | c
    · rfl
    · simp [Except.map, append]
    · simp [Except.map, append]

/-- What some parts add does not depend on the set to which they are added. -/
lemma foldlM_addPart (set : FilterSet) (texts : List (List Char)) :
    texts.foldlM (addPart strict twoSided) set =
      (texts.foldlM (addPart strict twoSided) {}).map (append set) := by
  induction texts generalizing set with
  | nil => simp [pure, Except.pure, Except.map, append]
  | cons text texts ih =>
    rw [List.foldlM_cons, List.foldlM_cons, addPart_eq]
    cases addPart strict twoSided {} text with
    | error e => rfl
    | ok added =>
      show texts.foldlM (addPart strict twoSided) (append set added) =
        (texts.foldlM (addPart strict twoSided) added).map (append set)
      rw [ih, ih added]
      cases texts.foldlM (addPart strict twoSided) {} with
      | error e => rfl
      | ok rest => simp [Except.map, append_assoc]

/-! ### Reading filters -/

/-- Filter texts are read part by part, in order. -/
lemma parse_eq_foldlM_parts :
    parse strict twoSided expressions =
      (expressions.flatMap fun e => parts e.toList).foldlM (addPart strict twoSided) {} := by
  have hparts : (expressions.flatMap fun e => parts e.toList) =
      (expressions.flatMap fun e => splitAll separator e.toList).map trim := by
    simp only [parts, List.map_flatMap]
  have hadd : (fun set part => addPart strict twoSided set (trim part)) = addPart strict twoSided := by
    funext set part
    exact addPart_trim strict twoSided set part
  rw [hparts, List.foldlM_map, hadd]
  rfl

/-- The filters are read one after another. -/
lemma parse_cons :
    parse strict twoSided (e :: expressions) =
      (parse strict twoSided [e]).bind fun first =>
        (parse strict twoSided expressions).map (append first) := by
  rw [parse_eq_foldlM_parts, parse_eq_foldlM_parts, parse_eq_foldlM_parts, List.flatMap_cons,
    List.foldlM_append, List.flatMap_singleton]
  cases (parts e.toList).foldlM (addPart strict twoSided) {} with
  | error e => rfl
  | ok first => exact foldlM_addPart strict twoSided first _

/-- Filters give the conditions and left out texts of the single ones, in order, or the first error. -/
lemma parse_eq_concat :
    parse strict twoSided expressions =
      (expressions.mapM fun e => parse strict twoSided [e]).map concat := by
  induction expressions with
  | nil => rfl
  | cons e expressions ih =>
    rw [parse_cons, ih, List.mapM_cons]
    cases parse strict twoSided [e] with
    | error e => rfl
    | ok first =>
      show Except.map (append first) _ = Except.map concat (Except.bind _ _)
      cases expressions.mapM fun e => parse strict twoSided [e] with
      | error e => rfl
      | ok rest => rfl

/-- A blank filter gives no condition. -/
lemma parse_singleton_of_isBlankString (h : isBlankString e = true) :
    parse strict twoSided [e] = .ok {} := by
  have hblank : ∀ c ∈ e.toList, isBlank c = true :=
    (trim_eq_nil_iff _).1 (List.isEmpty_iff.1 h)
  have hnone : find? separator e.toList = none := by
    refine find?_eq_none_iff.2 fun hword => ?_
    have hamp : isBlank '&' = true := hblank '&' (hword.subset (by simp [separator]))
    exact absurd hamp (by decide)
  have hparts : parts e.toList = [[]] := by
    rw [parts, splitAll_of_find?_eq_none hnone, List.map_singleton, List.isEmpty_iff.1 h]
  rw [parse_eq_foldlM_parts, List.flatMap_singleton, hparts]
  rfl

/-- Blank filters make no difference. -/
lemma parse_filter_not_isBlankString :
    parse strict twoSided (expressions.filter fun e => !isBlankString e) =
      parse strict twoSided expressions := by
  induction expressions with
  | nil => rfl
  | cons e expressions ih =>
    by_cases h : isBlankString e = true
    · rw [List.filter_cons_of_neg (by simp [h]), ih, parse_cons,
        parse_singleton_of_isBlankString strict twoSided h]
      show parse strict twoSided expressions = (parse strict twoSided expressions).map (append {})
      cases parse strict twoSided expressions with
      | error e => rfl
      | ok rest => rfl
    · rw [List.filter_cons_of_pos (by simpa using h), parse_cons, ih, ← parse_cons]

/-- Filters that differ in blank ones only give the same. -/
lemma parse_congr {others : List String}
    (h : (expressions.filter fun e => !isBlankString e) = others.filter fun e => !isBlankString e) :
    parse strict twoSided expressions = parse strict twoSided others := by
  rw [← parse_filter_not_isBlankString, h, parse_filter_not_isBlankString]

end FilterSet

namespace Scan

open FilterSet

variable (strict twoSided : Bool)

/-- Writing double ampersands between blanks joins the parts of two texts. -/
lemma parts_conjunction (a b : List Char) :
    parts (a ++ conjunction.toList ++ b) = parts a ++ parts b := by
  have hblank : isBlank ' ' = true := by decide
  have hmem : ' ' ∉ separator := by decide
  have hsep : separator ≠ [] := by decide
  have htext : a ++ conjunction.toList ++ b = (a ++ [' ']) ++ (separator ++ ' ' :: b) := by
    simp [conjunction, separator]
  have hlast : ∀ c ∈ (a ++ [' ']).getLast?, c ∉ separator := by
    rw [List.getLast?_concat]
    rintro c ⟨⟩
    exact hmem
  rw [htext, parts, splitAll_append hsep hlast, List.map_append,
    map_trim_splitAll_concat hsep hblank hmem, map_trim_splitAll_cons hsep hblank hmem]
  rfl

/-- The parts of a joined expression are those of the filters in order. -/
lemma parts_intercalate {texts : List String} (h : texts ≠ []) :
    parts (conjunction.intercalate texts).toList = texts.flatMap fun e => parts e.toList := by
  rw [String.toList_intercalate]
  induction texts with
  | nil => exact absurd rfl h
  | cons first rest ih =>
    cases rest with
    | nil => simp
    | cons second rest =>
      have hrest := ih (List.cons_ne_nil _ _)
      rw [List.map_cons, List.map_cons, List.intercalate_cons_cons, parts_conjunction,
        ← List.map_cons, hrest]
      rfl

/-- Filter texts are added in order, without the blank ones. -/
lemma filters_addFilters (s : Scan) (texts : List String) :
    (s.addFilters texts).filters = s.filters ++ texts.filter fun e => !isBlankString e := by
  unfold addFilters
  induction texts generalizing s with
  | nil => simp
  | cons text texts ih =>
    rw [List.foldl_cons, ih, addFilter]
    by_cases h : isBlankString text = true
    · simp [h]
    · simp [h]

/-- The expression that is handed over gives what its filters give. -/
lemma parse_filterWith_eq_parse (s : Scan) (extra : Option String) :
    FilterSet.parse strict twoSided (s.filterWith extra).toList =
      FilterSet.parse strict twoSided (s.filters ++ extra.toList) := by
  have hextra : (extra.filter fun e => !isBlankString e).toList =
      extra.toList.filter fun e => !isBlankString e := by
    cases extra with
    | none => rfl
    | some e => by_cases h : isBlankString e = true <;> simp [Option.filter, h]
  have hblank : FilterSet.parse strict twoSided (s.filters ++ extra.toList.filter fun e => !isBlankString e) =
      FilterSet.parse strict twoSided (s.filters ++ extra.toList) :=
    parse_congr strict twoSided (by simp [List.filter_append, List.filter_filter])
  rw [← hblank]
  unfold filterWith
  rw [hextra]
  split
  · next h =>
    rw [h]
    rfl
  · next hne =>
    rw [parse_eq_foldlM_parts, parse_eq_foldlM_parts, Option.toList_some, List.flatMap_singleton,
      parts_intercalate hne]

/-- Filters that were added to a scan, and the one of a request, are handed over as one expression. It
gives the conditions of the single filters in order and the texts that they leave out in order, or the
error of the first one that is refused. So it accepts what each of them accepts. -/
theorem parse_filterWith (s : Scan) (texts : List String) (extra : Option String) :
    FilterSet.parse strict twoSided ((s.addFilters texts).filterWith extra).toList =
        ((s.filters ++ texts ++ extra.toList).mapM fun e => FilterSet.parse strict twoSided [e]).map concat ∧
      ∀ sets, (∀ value, (concat sets).accepts value = sets.all fun set => set.accepts value) ∧
        ∀ left right,
          (concat sets).acceptsPair left right = sets.all fun set => set.acceptsPair left right := by
  constructor
  · have hblank : FilterSet.parse strict twoSided
        ((s.filters ++ texts.filter fun e => !isBlankString e) ++ extra.toList) =
          FilterSet.parse strict twoSided (s.filters ++ texts ++ extra.toList) :=
      parse_congr strict twoSided (by simp [List.filter_append, List.filter_filter])
    rw [parse_filterWith_eq_parse, filters_addFilters, hblank, parse_eq_concat]
  · intro sets
    constructor
    · exact accepts_concat sets
    · exact acceptsPair_concat sets

end Scan

end EntityDump
