import EntityDump.Proofs.Filter.QuotedLiteral
import EntityDump.Proofs.Filter.Separation
/-!
# Conditions on any literal

Behind the text of a path, a sign or a word between blanks is read as the operator whatever the literal
(`Condition.parse?_spaced`). The literal may hold operators, brackets and quotes: an operator that is looked for
earlier is found further back if at all (`Operator.two_le_of_mem_find?`), and what stands before it there holds a
blank, so that no condition is read around it. In a set the same is read if no separator stands in the text
(`FilterSet.parse_spaced`).
-/

namespace EntityDump

open Text

/-! ### Texts around a character -/

namespace Text

variable {word a s : List Char} {c : Char}

/-- A word stands before a character that it does not hold, not across it. -/
lemma isPrefix_of_isPrefix_append_cons (hc : c ∉ word) (h : word <+: a ++ c :: s) : word <+: a := by
  have hfront : a ++ [c] <+: a ++ c :: s := ⟨s, by simp⟩
  rcases List.prefix_or_prefix_of_prefix h hfront with hshort | hlong
  · rcases List.prefix_concat_iff.1 hshort with rfl | hshort
    · exact absurd (by simp) hc
    · exact hshort
  · exact absurd (hlong.subset (by simp)) hc

/-- A word that stands in neither of two texts does not stand across a character between them that it lacks. -/
lemma not_isInfix_append_cons (hword : word ≠ []) (hc : c ∉ word) (ha : ¬ word <:+: a) (hs : ¬ word <:+: s) :
    ¬ word <:+: a ++ c :: s := by
  induction a with
  | nil =>
    rw [List.nil_append, List.infix_cons_iff, not_or]
    exact ⟨not_isPrefix_cons_of_not_mem hword hc, hs⟩
  | cons d a ih =>
    have hrest : ¬ word <:+: a := fun h => ha (List.infix_cons h)
    have hhere : ¬ word <+: d :: (a ++ c :: s) := fun h =>
      ha (isPrefix_of_isPrefix_append_cons (a := d :: a) hc h).isInfix
    rw [List.cons_append, List.infix_cons_iff, not_or]
    exact ⟨hhere, ih hrest⟩

end Text

/-! ### Operators that are looked for earlier -/

variable {word s : List Char}

/-- Where a word is found, it stands. -/
lemma isPrefix_of_findWord? {position i : Nat} {before : Option Char}
    (h : findWord? word position before s = some i) : ∃ n, i = position + n ∧ word <+: s.drop n := by
  induction s generalizing position before with
  | nil => cases h
  | cons c s ih =>
    rw [findWord?] at h
    split at h
    · next hhere =>
      obtain ⟨behind, hbehind, -⟩ := (Option.any_eq_true _ _).1 hhere
      exact ⟨0, (Option.some.inj h).symm, behind, (dropStart?_eq_some_iff.1 hbehind).symm⟩
    · obtain ⟨n, rfl, hn⟩ := ih h
      exact ⟨n + 1, by omega, hn⟩

namespace Operator

variable {o other : Operator} {i : Nat}

/-- An operator stands where it is found. -/
lemma isPrefix_of_find? (h : o.find? s = some i) : o.symbol.toList <+: s.drop i := by
  rw [find?] at h
  split at h
  · obtain ⟨n, rfl, hn⟩ := isPrefix_of_findWord? h
    rwa [Nat.zero_add]
  · obtain ⟨rest, hrest⟩ := find?_spec h
    exact ⟨rest, hrest.symm⟩

/-- No operator holds a blank. -/
lemma not_mem_symbol : ' ' ∉ o.symbol.toList := by
  cases o <;> decide

/-- No operator is empty. -/
lemma symbol_ne_nil : o.symbol.toList ≠ [] := by
  cases o <;> decide

/-- Behind a blank an operator is found where it stands, or at least one character later. -/
lemma two_le_of_mem_find? (habsent : ¬ o.symbol.toList <+: s) : ∀ i ∈ o.find? (' ' :: s), 2 ≤ i := by
  intro i hi
  have hprefix := isPrefix_of_find? hi
  match i with
  | 0 => exact absurd hprefix (not_isPrefix_cons_of_not_mem symbol_ne_nil not_mem_symbol)
  | 1 => exact absurd hprefix habsent
  | i + 2 => omega

/-- No operator begins with one that is looked for before it. -/
lemma pairwise_all : all.Pairwise fun other o => ¬ other.symbol.toList <+: o.symbol.toList := by
  decide

/-- Operators that are looked for earlier are found behind one that stands between blanks. -/
lemma exists_all_eq (o : Operator) (s : List Char) :
    ∃ before after, all = before ++ o :: after ∧
      ∀ other ∈ before, ∀ i ∈ other.find? (' ' :: (o.symbol.toList ++ ' ' :: s)), 2 ≤ i := by
  have hmem : o ∈ all := by cases o <;> decide
  obtain ⟨before, after, hall⟩ := List.append_of_mem hmem
  refine ⟨before, after, hall, fun other hother => two_le_of_mem_find? fun hprefix => ?_⟩
  have hpairwise := pairwise_all
  rw [hall, List.pairwise_append] at hpairwise
  exact hpairwise.2.2 other hother o List.mem_cons_self (isPrefix_of_isPrefix_append_cons not_mem_symbol hprefix)

/-- An operator that takes a literal is found between its blanks. -/
lemma find?_spaced (ho : o ≠ .exist) (s : List Char) :
    o.find? (' ' :: (o.symbol.toList ++ ' ' :: s)) = some 1 := by
  cases o with
  | exist => contradiction
  | _ => rfl

end Operator

/-! ### Naming a side -/

/-- What stands before a path to name its side: nothing where paths have no side, and else the letter of the side and
a dot. -/
structure Side.Named (twoSided : Bool) (side : Side) (before : List Char) : Prop where
  split : ∀ path, (if twoSided then splitSide (before ++ path) else (.left, before ++ path)) = (side, path)
  scan : ∀ s, operatorScan (before ++ s) = before ++ operatorScan s
  plain : ∀ c ∈ before, isBlank c = false ∧ c ∉ signs

/-- A condition on one source needs no name in front of its path. -/
lemma Side.named_nil : Named false .left [] :=
  ⟨fun _ => rfl, fun _ => rfl, List.forall_mem_nil _⟩

/-- The left side of a pair is named by its letter and a dot. -/
lemma Side.named_left : Named true .left ['a', '.'] :=
  ⟨fun _ => rfl, fun _ => rfl, by simp [signs, isBlank]⟩

/-- The right side of a pair is named by its letter and a dot. -/
lemma Side.named_right : Named true .right ['b', '.'] :=
  ⟨fun _ => rfl, fun _ => rfl, by simp [signs, isBlank]⟩

/-! ### Reading the condition -/

variable {p : String} {path : Path} {o : Operator} {twoSided : Bool} {side : Side} {before : List Char}

namespace Condition

/-- Blanks around a condition do not matter. -/
lemma parseChars?_trim (twoSided : Bool) (s : List Char) :
    parseChars? twoSided (trim s) = parseChars? twoSided s := by
  rw [parseChars?, parseChars?, trim_trim]

/-- Behind an operand the operator is read that stands there, if the literal ends with no blank. -/
lemma parseChars?_spaced_of_getLast? (hnamed : side.Named twoSided before) (hpath : Path.parse p = .ok path)
    (hp : Path.IsOperand p.toList) (ho : o ≠ .exist) {literal : List Char} (hliteral : trim literal ≠ [])
    (hlast : ∀ c ∈ literal.getLast?, isBlank c = false) :
    parseChars? twoSided (before ++ p.toList ++ ' ' :: (o.symbol.toList ++ ' ' :: literal)) =
      some ⟨side, path, o, readLiteral (trim literal)⟩ := by
  obtain ⟨front, hlength, hfront, happend⟩ := exists_operatorScan hpath hp
  have hnot : (o == .exist) = false := beq_eq_false_iff_ne.2 ho
  have hne : literal ≠ [] := by
    rintro rfl
    exact hliteral rfl
  -- The mask is at its start again behind the operand, so the operator is shown as it is.
  have hshown : operatorScan (before ++ p.toList ++ ' ' :: (o.symbol.toList ++ ' ' :: literal)) =
      (before ++ front) ++ ' ' :: (o.symbol.toList ++ ' ' :: operatorScan literal) := by
    have hspaced := o.shows_spaced.apply_append literal
    rw [List.append_assoc, hnamed.scan, happend, List.append_assoc]
    simpa [Operator.spaced, operatorScan, ho] using hspaced
  have hlength' : (before ++ front).length = (before ++ p.toList).length := by
    rw [List.length_append, List.length_append, hlength]
  have hfront' : ∀ c ∈ before ++ front, isBlank c = false ∧ c ∉ signs :=
    List.forall_mem_append.2 ⟨hnamed.plain, hfront⟩
  have hname : ∀ c ∈ before ++ p.toList, isBlank c = false :=
    List.forall_mem_append.2 ⟨fun c hc => (hnamed.plain c hc).1, hp.blank⟩
  have htrim : trim (' ' :: literal) = trim literal := trim_cons_of_isBlank (by decide) literal
  have hend : ∀ c ∈ (o.symbol.toList ++ ' ' :: literal).getLast?, isBlank c = false := by
    intro c hc
    rw [List.getLast?_append_of_ne_nil _ (List.cons_ne_nil _ _), List.getLast?_cons_of_ne_nil hne] at hc
    exact hlast c hc
  have hbehind : (trim (' ' :: literal)).isEmpty = (o == .exist) := by
    rw [htrim, hnot, List.isEmpty_eq_false_iff]
    exact hliteral
  have hparse : Path.parse (String.ofList p.toList) = .ok path := by rwa [String.ofList_toList]
  have hread : parseChars? twoSided (before ++ p.toList ++ ' ' :: (o.symbol.toList ++ ' ' :: literal)) = some _ :=
    parseChars?_of_position hshown hlength' hfront' (Operator.find?_spaced ho _) (Operator.exists_all_eq o _)
      (List.append_ne_nil_of_right_ne_nil _ hp.ne_nil) hname hend hbehind (hnamed.split _) hparse
  rwa [htrim, hnot] at hread

/-- Behind an operand the operator is read that stands there, whatever the literal. -/
lemma parseChars?_spaced (hnamed : side.Named twoSided before) (hpath : Path.parse p = .ok path)
    (hp : Path.IsOperand p.toList) (ho : o ≠ .exist) {literal : List Char} (hliteral : trim literal ≠ []) :
    parseChars? twoSided (before ++ p.toList ++ ' ' :: (o.symbol.toList ++ ' ' :: literal)) =
      some ⟨side, path, o, readLiteral literal⟩ := by
  obtain ⟨blanks, behind, hblanks, hbehind, hsplit⟩ := exists_trim literal
  have htext : before ++ p.toList ++ ' ' :: (o.symbol.toList ++ ' ' :: literal) =
      [] ++ ((before ++ p.toList ++ ' ' :: (o.symbol.toList ++ ' ' :: (blanks ++ trim literal))) ++ behind) := by
    conv_lhs => rw [hsplit]
    simp
  have htrim : trim (blanks ++ trim literal) = trim literal := by
    rw [← List.append_nil (trim literal), trim_append hblanks (List.forall_mem_nil _), List.append_nil, trim_trim]
  have hlast : ∀ c ∈ (blanks ++ trim literal).getLast?, isBlank c = false := by
    rw [List.getLast?_append_of_ne_nil _ hliteral]
    exact isBlank_last_trim literal
  have hfilled : trim (blanks ++ trim literal) ≠ [] := by
    rw [htrim]
    exact hliteral
  rw [← parseChars?_trim, htext, trim_append (List.forall_mem_nil _) hbehind, parseChars?_trim,
    parseChars?_spaced_of_getLast? hnamed hpath hp ho hfilled hlast, htrim]
  unfold readLiteral
  rw [trim_trim]

/-- A condition is written as its side, its path, its operator and its literal, with single blanks between them. -/
lemma toList_spaced (before : List Char) (p : String) (o : Operator) (literal : String) :
    (String.ofList before ++ p ++ " " ++ o.symbol ++ " " ++ literal).toList =
      before ++ p.toList ++ ' ' :: (o.symbol.toList ++ ' ' :: literal.toList) := by
  simp

/-- The text of a path, an operator between blanks and any text that is not blank are read as the condition on the
path with this operator and the literal that the text stands for. The side may be named before the path. -/
theorem parse?_spaced (hnamed : side.Named twoSided before) (hpath : Path.parse p = .ok path)
    (hp : Path.IsOperand p.toList) (ho : o ≠ .exist) {literal : String} (hliteral : trim literal.toList ≠ []) :
    parse? twoSided (String.ofList before ++ p ++ " " ++ o.symbol ++ " " ++ literal) =
      some ⟨side, path, o, readLiteral literal.toList⟩ := by
  rw [parse?, toList_spaced, parseChars?_spaced hnamed hpath hp ho hliteral]

end Condition

/-- Without separators in the path and the literal, the condition is all that a set reads from the text. -/
theorem FilterSet.parse_spaced (strict : Bool) (hnamed : side.Named twoSided before)
    (hpath : Path.parse p = .ok path) (hp : Path.IsOperand p.toList) (ho : o ≠ .exist) {literal : String}
    (hliteral : trim literal.toList ≠ []) (hsep : ¬ separator <:+: before ++ p.toList)
    (hsep' : ¬ separator <:+: literal.toList) :
    parse strict twoSided [String.ofList before ++ p ++ " " ++ o.symbol ++ " " ++ literal] =
      .ok { conditions := [⟨side, path, o, readLiteral literal.toList⟩] } := by
  have hread := Condition.parseChars?_spaced hnamed hpath hp ho hliteral
  have hne : separator ≠ [] := by decide
  have hblank : ' ' ∉ separator := by decide
  have hsymbol : ¬ separator <:+: o.symbol.toList := by cases o <;> decide
  have habsent := not_isInfix_append_cons hne hblank hsep (not_isInfix_append_cons hne hblank hsymbol hsep')
  have hfilled := not_isEmpty_trim_of_parseChars? twoSided hread
  rw [parse, List.flatMap_singleton, Condition.toList_spaced,
    splitAll_of_find?_eq_none (find?_eq_none_iff.2 habsent)]
  refine foldlM_addPart_of_mapM strict twoSided ?_
  rw [List.filter_cons_of_pos (by rw [hfilled]; rfl), List.filter_nil, List.mapM_cons, hread, List.mapM_nil]
  rfl

end EntityDump
