import EntityDump.Proofs.Filter.Literal
import EntityDump.Proofs.Query.Groups
/-!
# Equal and not equal

A value is equal to a literal or it is not, but a condition is about all that a path selects of an element. Where
it selects nothing the element counts as not equal, and where it selects one value this value decides, so by a path
without wildcards each element is one of the two (`Condition.holds_notEqual_eq_not`). Where it selects several, some
may be equal and others not. So every question that is asked with either condition counts all elements between them
(`Engine.equal_notEqual_cover`).
-/

namespace EntityDump

open Json.Grammar (Derives IsBlank)

/-! ### One element -/

namespace Condition

variable {side : Side} {path : Path} {literal value : Json}

/-- Where the path selects nothing the operator alone decides. -/
lemma holds_of_select_eq_nil {c : Condition} (h : c.path.select value = []) :
    c.holds value = c.operator.holdsOfNothing := by
  rw [holds, h]

/-- Where the path selects values a condition holds if it does for one of them. -/
lemma holds_of_select_eq_cons {c : Condition} {v : Json} {rest : List Json}
    (h : c.path.select value = v :: rest) :
    c.holds value = (v :: rest).any fun v => c.operator.holds v c.literal := by
  rw [holds, h]

/-- The first value that a path selects is equal to the literal or it is not. -/
lemma holds_equal_or_notEqual (side : Side) (path : Path) (literal value : Json) :
    holds ⟨side, path, .equal, literal⟩ value = true ∨ holds ⟨side, path, .notEqual, literal⟩ value = true := by
  cases hselected : path.select value with
  | nil => exact .inr (holds_of_select_eq_nil hselected)
  | cons v rest =>
    rw [holds_of_select_eq_cons hselected, holds_of_select_eq_cons hselected, List.any_cons, List.any_cons]
    cases hequal : Compare.equal v literal with
    | true => exact .inl (by simp [Operator.holds, hequal])
    | false => exact .inr (by simp [Operator.holds, hequal])

/-- Of a path that selects no more than one value, not equal is the opposite of equal. -/
lemma holds_notEqual_eq_not (hlength : (path.select value).length ≤ 1) :
    holds ⟨side, path, .notEqual, literal⟩ value = !holds ⟨side, path, .equal, literal⟩ value := by
  cases hselected : path.select value with
  | nil =>
    rw [holds_of_select_eq_nil hselected, holds_of_select_eq_nil hselected]
    rfl
  | cons v rest =>
    rw [hselected, List.length_cons] at hlength
    obtain rfl : rest = [] := List.length_eq_zero_iff.1 (by omega)
    rw [holds_of_select_eq_cons hselected, holds_of_select_eq_cons hselected]
    simp [Operator.holds]

end Condition

/-! ### All elements -/

section Counting

variable {α : Type} {p q : α → Bool}

/-- Two properties of which each item has one are counted at least as often as there are items. -/
lemma length_le_countP_add_countP (h : ∀ a, p a = true ∨ q a = true) (items : List α) :
    items.length ≤ items.countP p + items.countP q := by
  have hmono : (items.countP fun a => decide ¬ p a = true) ≤ items.countP q := by
    refine List.countP_mono_left fun a _ hnot => ?_
    exact (h a).resolve_left (by simpa using hnot)
  have hlength := List.length_eq_countP_add_countP p (l := items)
  omega

/-- Items are counted once by two opposite tests. -/
lemma length_eq_countP_add_countP_not (h : ∀ a, q a = !p a) (items : List α) :
    items.length = items.countP p + items.countP q := by
  have hcongr : (items.countP fun a => decide ¬ p a = true) = items.countP q := by
    refine List.countP_congr fun a _ => ?_
    simp [h a]
  have hlength := List.length_eq_countP_add_countP p (l := items)
  omega

end Counting

/-- A set of a single condition accepts what the condition holds of. -/
lemma FilterSet.accepts_eq_holds {filter : FilterSet} {c : Condition} (h : filter.conditions = [c]) :
    filter.accepts = c.holds := by
  funext value
  rw [accepts, h, List.all_cons, List.all_nil, Bool.and_true]

namespace Engine

/-- Two conditions cover the elements of a source: each element meets one of them, an element where the path selects
nothing only the second one, and if the path has no wildcard each element meets exactly one. Under a filter that is
one of them all questions count the elements that meet it, so between them they count each element. -/
structure CoveredBy (engine : Engine) (source : Source) (elements : List Json) (path : Path)
    (first second : Condition) : Prop where
  some_holds : ∀ element, first.holds element = true ∨ second.holds element = true
  nothing_selected : ∀ element, path.select element = [] →
    first.holds element = false ∧ second.holds element = true
  one_holds : path.hasWildcard = false →
    ∀ element, Xor (first.holds element = true) (second.holds element = true)
  counts : ∀ c ∈ [first, second], ∀ expression filter, engine.filter expression = .ok filter →
    filter.conditions = [c] → engine.CountsAlike source expression elements.length (elements.countP c.holds)
  length_le : elements.length ≤ elements.countP first.holds + elements.countP second.holds
  length_eq : path.hasWildcard = false →
    elements.countP first.holds + elements.countP second.holds = elements.length

variable {engine : Engine} {source : Source} {elements : List Json}

/-- The conditions for equal and for different values cover all elements of a source. -/
lemma coveredBy (helements : source.elements engine.config.stream engine.directory = .ok elements)
    (path : Path) (literal : Json) :
    engine.CoveredBy source elements path ⟨.left, path, .equal, literal⟩ ⟨.left, path, .notEqual, literal⟩ where
  some_holds := Condition.holds_equal_or_notEqual .left path literal
  nothing_selected element h := by
    rw [Condition.holds_of_select_eq_nil h, Condition.holds_of_select_eq_nil h]
    exact ⟨rfl, rfl⟩
  one_holds hpath element := by
    rw [Condition.holds_notEqual_eq_not (Path.length_select_le_one hpath element)]
    cases Condition.holds ⟨.left, path, .equal, literal⟩ element <;> simp [Xor]
  counts c _ expression filter hfilter hconditions := by
    have hcounts := countsAlike helements hfilter
    rwa [FilterSet.accepts_eq_holds hconditions] at hcounts
  length_le := length_le_countP_add_countP (Condition.holds_equal_or_notEqual .left path literal) elements
  length_eq hpath := by
    refine (length_eq_countP_add_countP_not (fun element => ?_) elements).symm
    exact Condition.holds_notEqual_eq_not (Path.length_select_le_one hpath element)

/-- For every source that can be read, every path and every literal, the conditions that the path is equal to the
literal and that it is not cover the elements. These are the conditions that filters read from the text of the path,
the sign and a text for the literal. -/
theorem equal_notEqual_cover (engine : Engine) (source : Source) (elements : List Json) (path : Path)
    (literal : Json) (helements : source.elements engine.config.stream engine.directory = .ok elements) :
    engine.CoveredBy source elements path ⟨.left, path, .equal, literal⟩ ⟨.left, path, .notEqual, literal⟩ ∧
      ∀ p s : String, Path.parse p = .ok path → Path.IsOperand p.toList → Text.trim s.toList ≠ [] →
        readLiteral s.toList = literal → ¬ FilterSet.separator <:+: p.toList →
        ¬ FilterSet.separator <:+: s.toList →
          engine.filter (some (p ++ " = " ++ s)) = .ok { conditions := [⟨.left, path, .equal, literal⟩] } ∧
          engine.filter (some (p ++ " != " ++ s)) =
            .ok { conditions := [⟨.left, path, .notEqual, literal⟩] } := by
  refine ⟨coveredBy helements path literal, ?_⟩
  rintro p s hpath hp hs rfl hsep hsep'
  have hread : ∀ o : Operator, o ≠ .exist → engine.filter (some (p ++ (" " ++ o.symbol ++ " ") ++ s)) =
      .ok { conditions := [⟨.left, path, o, readLiteral s.toList⟩] } := by
    intro o ho
    have htext : p ++ (" " ++ o.symbol ++ " ") ++ s = String.ofList [] ++ p ++ " " ++ o.symbol ++ " " ++ s := by
      simp [String.append_assoc]
    rw [htext]
    exact FilterSet.parse_spaced engine.config.query.strictFilters Side.named_nil hpath hp ho hs hsep hsep'
  exact ⟨hread .equal (by decide), hread .notEqual (by decide)⟩

/-- Of two items the first has the number at its second place. -/
theorem equal_notEqual_cover_of_numberedItems :
    ∃ r r', count ⟨{}, numberedItems⟩ (.rootArray "a") (some "[1] = 5") = .ok r ∧
      count ⟨{}, numberedItems⟩ (.rootArray "a") (some "[1] != 5") = .ok r' ∧
      r.scanned = 2 ∧ r'.scanned = 2 ∧ r.total = 1 ∧ r'.total = 1 := by
  have hpath : Path.parse "[1]" = .ok ⟨"[1]", [.index 1]⟩ :=
    Path.parse_of_scan (by decide) (by decide +kernel)
  have hone : numberedElements.countP
      (Condition.holds ⟨.left, ⟨"[1]", [.index 1]⟩, .equal, .number (.int 5)⟩) = 1 := by decide +kernel
  obtain ⟨hcover, hread⟩ := equal_notEqual_cover ⟨{}, numberedItems⟩ (.rootArray "a") numberedElements
    ⟨"[1]", [.index 1]⟩ (.number (.int 5)) elements_numberedItems
  obtain ⟨hequal, hnotEqual⟩ := hread "[1]" "5" hpath (by decide +kernel) (by decide)
    rfl (by decide) (by decide)
  obtain ⟨r, hr, hscanned, htotal⟩ := (hcover.counts _ (by simp) _ _ hequal rfl).count
  obtain ⟨r', hr', hscanned', htotal'⟩ := (hcover.counts _ (by simp) _ _ hnotEqual rfl).count
  have hsum := hcover.length_eq rfl
  have hlength : numberedElements.length = 2 := rfl
  exact ⟨r, r', hr, hr', hscanned, hscanned', htotal.trans hone, by omega⟩

end Engine

end EntityDump
