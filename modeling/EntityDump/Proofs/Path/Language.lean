import EntityDump.Proofs.Path.Grammar
/-!
# The language of path expressions

A path expression is nothing, or a first step and further steps one behind the other (`IsSteps`). A step is a key
or a pair of brackets; a further step stands behind a dot, and brackets may also follow at once. These are the texts
that spell segments (`spells_iff_isSteps`), so the reader takes them and refuses all others
(`parse_reads_steps`).
-/

namespace EntityDump.Path

open Text

/-- The text of a step and the segment that it denotes: a key outside brackets, or brackets around what selects a
segment. -/
inductive IsStep : List Char → Segment → Prop
  | key {name : List Char} : name ≠ [] → (∀ c ∈ name, isSpecial c = false) →
      IsStep name (.key (String.ofList name))
  | bracket {inner : List Char} {segment : Segment} : Selects inner segment →
      IsStep ('[' :: (inner ++ [']'])) segment

/-- The text of a step behind another one: a dot and a step, or brackets alone. -/
inductive IsFurtherStep : List Char → Segment → Prop
  | dotted {text : List Char} {segment : Segment} : IsStep text segment → IsFurtherStep ('.' :: text) segment
  | bracket {inner : List Char} {segment : Segment} : Selects inner segment →
      IsFurtherStep ('[' :: (inner ++ [']'])) segment

/-- The text is a list of steps, which denote the segments in order. -/
inductive IsSteps : List Char → List Segment → Prop
  | nil : IsSteps [] []
  | cons {first : List Char} {further : List (List Char)} {segment : Segment} {segments : List Segment} :
      IsStep first segment → List.Forall₂ IsFurtherStep further segments →
      IsSteps (first ++ further.flatten) (segment :: segments)

variable {text rest inner : List Char} {further : List (List Char)} {segment : Segment}
  {segments : List Segment} {begun : Bool}

/-! ### Steps spell their segments -/

/-- No step is an empty text. -/
lemma IsStep.ne_nil (h : IsStep text segment) : text ≠ [] := by
  rcases h with ⟨hne, -⟩ | -
  · exact hne
  · exact List.cons_ne_nil _ _

/-- A bracket in front of a text that spells segments adds its own. -/
lemma spells_bracket (h : Selects inner segment) (hrest : Spells true rest segments) :
    Spells begun ('[' :: (inner ++ [']']) ++ rest) (segment :: segments) := by
  rw [List.cons_append, List.append_assoc, List.singleton_append]
  exact .bracket h hrest

/-- A step at the beginning of a text adds its segment. -/
lemma IsStep.spells (h : IsStep text segment) (hrest : Spells true rest segments) :
    Spells false (text ++ rest) (segment :: segments) := by
  rcases h with ⟨hne, hplain⟩ | hselects
  · exact .key hne hplain hrest
  · exact spells_bracket hselects hrest

/-- A further step in front of a text adds its segment. -/
lemma IsFurtherStep.spells (h : IsFurtherStep text segment) (hrest : Spells true rest segments) :
    Spells true (text ++ rest) (segment :: segments) := by
  rcases h with hstep | hselects
  · exact .dot (List.append_ne_nil_of_left_ne_nil hstep.ne_nil rest) (hstep.spells hrest)
  · exact spells_bracket hselects hrest

/-- Behind a text that has begun, further steps spell their segments. -/
lemma spells_flatten (h : List.Forall₂ IsFurtherStep further segments) :
    Spells true further.flatten segments := by
  induction h with
  | nil => exact .nil true
  | cons hstep _ ih => exact hstep.spells ih

/-! ### A text that spells segments is made of steps -/

/-- The text is made of steps, of which the first is a further one if the text has begun. -/
def MadeOfSteps (begun : Bool) (text : List Char) (segments : List Segment) : Prop :=
  if begun then ∃ further, text = further.flatten ∧ List.Forall₂ IsFurtherStep further segments
  else IsSteps text segments

/-- Before a dot or a bracket the text may have begun or not. -/
lemma Spells.madeOfSteps (h : Spells begun text segments) : MadeOfSteps begun text segments := by
  induction h with
  | nil begun =>
    cases begun with
    | true => exact ⟨[], rfl, .nil⟩
    | false => exact .nil
  | key hne hplain _ ih =>
    obtain ⟨further, rfl, hfurther⟩ := ih
    exact .cons (.key hne hplain) hfurther
  | @bracket begun inner _ _ _ hselects _ ih =>
    obtain ⟨further, rfl, hfurther⟩ := ih
    have htext : '[' :: (inner ++ ']' :: further.flatten) = '[' :: (inner ++ [']']) ++ further.flatten := by
      simp
    rw [htext]
    cases begun with
    | true => exact ⟨_ :: further, rfl, .cons (.bracket hselects) hfurther⟩
    | false => exact .cons (.bracket hselects) hfurther
  | dot hne _ ih =>
    -- The step behind the dot is a first step there, and a further one together with the dot.
    rcases ih with - | ⟨hstep, hfurther⟩
    · exact absurd rfl hne
    · exact ⟨_ :: _, rfl, .cons (.dotted hstep) hfurther⟩

/-- A text spells segments exactly if it is a list of steps that denote them. -/
theorem spells_iff_isSteps : Spells false text segments ↔ IsSteps text segments := by
  constructor
  · intro h
    exact h.madeOfSteps
  · rintro (- | ⟨hstep, hfurther⟩)
    · exact .nil false
    · exact hstep.spells (spells_flatten hfurther)

/-! ### Reading -/

/-- What is refused is refused as a path expression. -/
lemma exists_fault_of_parse {expression : String} {e : Error} (h : parse expression = .error e) :
    ∃ fault, e = .invalidPath expression fault := by
  unfold parse at h
  dsimp only at h
  split at h
  · cases h
  · next fault _ =>
    cases h
    exact ⟨fault, rfl⟩

/-- The reader accepts a text exactly if, without the blanks around it, it is a list of steps, and reads it as
the segments that they denote; any other text is refused as a path expression. -/
theorem parse_reads_steps (expression : String) :
    (∀ p, parse expression = .ok p ↔
        IsSteps (trim expression.toList) p.segments ∧ p.text = String.ofList (trim expression.toList)) ∧
      ((¬ ∃ segments, IsSteps (trim expression.toList) segments) ↔
        ∃ fault, parse expression = .error (.invalidPath expression fault)) := by
  have haccepts : ∀ p, parse expression = .ok p ↔
      IsSteps (trim expression.toList) p.segments ∧ p.text = String.ofList (trim expression.toList) := by
    intro p
    rw [parse_eq_ok_iff, spells_iff_isSteps]
  refine ⟨haccepts, ?_, ?_⟩
  · intro hnot
    cases hp : parse expression with
    | ok p => exact absurd ⟨p.segments, ((haccepts p).1 hp).1⟩ hnot
    | error e =>
      obtain ⟨fault, rfl⟩ := exists_fault_of_parse hp
      exact ⟨fault, rfl⟩
  · rintro ⟨fault, hp⟩ ⟨segments, hsteps⟩
    have hok := (haccepts ⟨String.ofList (trim expression.toList), segments⟩).2 ⟨hsteps, rfl⟩
    rw [hp] at hok
    cases hok

end EntityDump.Path
