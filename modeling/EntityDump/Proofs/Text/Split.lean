import EntityDump.Proofs.Text.Trim
import EntityDump.Text.Search
import Mathlib.Data.List.Infix
/-!
# Cutting texts at a separator

Cutting a text at every separator undoes writing the separator between two texts (`splitAll_append`), as
long as the text in front does not end in a character of the separator: otherwise the first separator
could begin inside that text. Blanks that are no part of the separator can be written at either end
without changing the trimmed parts (`map_trim_splitAll_cons`, `map_trim_splitAll_concat`).
-/

namespace EntityDump.Text

variable {sep word s a : List Char} {c : Char} {i : Nat}

/-! ### Searching -/

/-- A beginning can be dropped where it stands. -/
lemma isSome_dropStart?_iff : (dropStart? word s).isSome = true ↔ word <+: s := by
  rw [Option.isSome_iff_exists]
  constructor
  · rintro ⟨rest, h⟩
    exact ⟨rest, (dropStart?_eq_some_iff.1 h).symm⟩
  · rintro ⟨rest, h⟩
    exact ⟨rest, dropStart?_eq_some_iff.2 h.symm⟩

/-- A word is found at once where the text begins with it. -/
lemma find?_cons_of_isPrefix (h : word <+: c :: s) : find? word (c :: s) = some 0 := by
  rw [find?, if_pos (isSome_dropStart?_iff.2 h)]

/-- Where the text does not begin with a word it is found behind the first character. -/
lemma find?_cons_of_not_isPrefix (h : ¬ word <+: c :: s) :
    find? word (c :: s) = (find? word s).map (· + 1) := by
  rw [find?, if_neg (mt isSome_dropStart?_iff.1 h)]

/-- A word is found unless it stands nowhere. -/
lemma find?_eq_none_iff : find? word s = none ↔ ¬ word <:+: s := by
  induction s with
  | nil => cases word <;> simp [find?]
  | cons c s ih =>
    rw [List.infix_cons_iff, not_or, ← ih]
    by_cases h : word <+: c :: s
    · simp [find?_cons_of_isPrefix h, h]
    · simp [find?_cons_of_not_isPrefix h, h]

/-- The text in front of the place where a word is found, the word, and the text behind it. -/
lemma exists_of_find? (h : find? word s = some i) :
    ∃ front behind, s = front ++ (word ++ behind) ∧ front.length = i := by
  induction s generalizing i with
  | nil =>
    cases word with
    | nil => exact ⟨[], [], rfl, by simpa [find?] using h⟩
    | cons p word => simp [find?] at h
  | cons c s ih =>
    by_cases hhere : word <+: c :: s
    · obtain ⟨behind, hbehind⟩ := hhere
      rw [find?_cons_of_isPrefix ⟨behind, hbehind⟩] at h
      exact ⟨[], behind, hbehind.symm, Option.some.inj h⟩
    · rw [find?_cons_of_not_isPrefix hhere] at h
      obtain ⟨j, hj, rfl⟩ := Option.map_eq_some_iff.1 h
      obtain ⟨front, behind, rfl, rfl⟩ := ih hj
      exact ⟨c :: front, behind, rfl, rfl⟩

/-- What is found in the front of a text is found there in the whole text. -/
lemma find?_append_of_some (h : find? word a = some i) (s : List Char) : find? word (a ++ s) = some i := by
  induction a generalizing i with
  | nil =>
    cases word with
    | nil => cases s <;> simpa [find?, dropStart?] using h
    | cons p word => simp [find?] at h
  | cons d a ih =>
    by_cases hhere : word <+: d :: a
    · rw [find?_cons_of_isPrefix hhere] at h
      have hwhole : word <+: d :: (a ++ s) := hhere.trans (List.prefix_append (d :: a) s)
      rw [List.cons_append, find?_cons_of_isPrefix hwhole, h]
    · have hlength : word.length ≤ (d :: a).length := by
        obtain ⟨front, behind, hsplit, -⟩ := exists_of_find? h
        have := congrArg List.length hsplit
        simp only [List.length_append] at this
        omega
      have hwhole : ¬ word <+: d :: (a ++ s) := fun hstart =>
        hhere (List.prefix_of_prefix_length_le hstart (List.prefix_append (d :: a) s) hlength)
      rw [find?_cons_of_not_isPrefix hhere] at h
      obtain ⟨j, hj, rfl⟩ := Option.map_eq_some_iff.1 h
      rw [List.cons_append, find?_cons_of_not_isPrefix hwhole, ih hj]
      rfl

/-- A word is not found across the end of a text whose last character is none of the word's. -/
lemma find?_append_of_none (hnone : find? word a = none) (hlast : ∀ c ∈ a.getLast?, c ∉ word)
    (hword : word <+: s) : find? word (a ++ s) = some a.length := by
  induction a with
  | nil =>
    cases s with
    | nil => simp [List.prefix_nil.1 hword, find?] at hnone
    | cons c s => exact find?_cons_of_isPrefix hword
  | cons d a ih =>
    have habsent : ¬ word <:+: d :: a := find?_eq_none_iff.1 hnone
    -- a word at the start of both is longer than the text in front, whose last character it then holds
    have hhere : ¬ word <+: d :: (a ++ s) := by
      intro h
      rcases List.prefix_or_prefix_of_prefix h (List.prefix_append (d :: a) s) with hshort | hlong
      · exact habsent hshort.isInfix
      · have hmem : (d :: a).getLast (by simp) ∈ d :: a := List.getLast_mem _
        exact hlast _ (by simp [List.getLast?_eq_getLast_of_ne_nil]) (hlong.subset hmem)
    have hrest : find? word a = none := find?_eq_none_iff.2 fun h => habsent (List.infix_cons h)
    have hlast' : ∀ c ∈ a.getLast?, c ∉ word := by
      intro c hc
      refine hlast c ?_
      rw [List.getLast?_cons, Option.mem_def.1 hc]
      rfl
    rw [List.cons_append, find?_cons_of_not_isPrefix hhere, ih hrest hlast']
    rfl

/-- A word does not begin with a character that it lacks. -/
lemma not_isPrefix_cons_of_not_mem (hword : word ≠ []) (hc : c ∉ word) : ¬ word <+: c :: s := by
  intro h
  obtain ⟨p, rest, rfl⟩ := List.exists_cons_of_ne_nil hword
  have hp : p = c := (List.cons_prefix_cons.1 h).1
  exact hc (by simp [hp])

/-- A character that is not in the word hides nothing when it stands behind. -/
lemma find?_concat_of_not_mem (hword : word ≠ []) (hc : c ∉ word) (s : List Char) :
    find? word (s ++ [c]) = find? word s := by
  cases h : find? word s with
  | some i => exact find?_append_of_some h [c]
  | none =>
    rw [find?_eq_none_iff] at h ⊢
    rintro ⟨front, behind, hsplit⟩
    rcases List.eq_nil_or_concat behind with rfl | ⟨behind, d, rfl⟩
    · have hmem : word.getLast hword ∈ word := List.getLast_mem hword
      have hend := congrArg List.getLast? hsplit
      rw [List.append_nil, List.getLast?_append_of_ne_nil _ hword, List.getLast?_concat,
        List.getLast?_eq_getLast_of_ne_nil hword] at hend
      exact hc (Option.some.inj hend ▸ hmem)
    · have hsplit : (front ++ word ++ behind) ++ [d] = s ++ [c] := by simpa using hsplit
      exact h ⟨front, behind, List.append_inj_left' hsplit rfl⟩

/-! ### Cutting -/

/-- More fuel than characters makes no difference. -/
lemma splitAllAux_eq (hsep : sep ≠ []) {fuel fuel' : Nat} (h : s.length ≤ fuel) (h' : s.length ≤ fuel') :
    splitAllAux sep fuel s = splitAllAux sep fuel' s := by
  have hzero : ∀ n, splitAllAux sep n [] = [[]] := by
    intro n
    cases n <;> simp [splitAllAux, find?, hsep]
  induction fuel generalizing fuel' s with
  | zero => rw [List.length_eq_zero_iff.1 (Nat.le_zero.1 h), hzero, hzero]
  | succ fuel ih =>
    cases fuel' with
    | zero => rw [List.length_eq_zero_iff.1 (Nat.le_zero.1 h'), hzero, hzero]
    | succ fuel' =>
      have hlength : 0 < sep.length := List.length_pos_iff.2 hsep
      rw [splitAllAux, splitAllAux]
      cases find? sep s with
      | none => rfl
      | some i =>
        dsimp only
        have hleft : (s.drop (i + sep.length)).length ≤ fuel := by
          rw [List.length_drop]
          omega
        have hright : (s.drop (i + sep.length)).length ≤ fuel' := by
          rw [List.length_drop]
          omega
        rw [ih hleft hright]

/-- A text in which the separator does not stand is not cut. -/
lemma splitAll_of_find?_eq_none (h : find? sep s = none) : splitAll sep s = [s] := by
  unfold splitAll
  cases hlength : s.length with
  | zero => rfl
  | succ n => rw [splitAllAux, h]

/-- The first part of a text ends at the first separator. -/
lemma splitAll_of_find?_eq_some (hsep : sep ≠ []) {front behind : List Char}
    (h : find? sep (front ++ (sep ++ behind)) = some front.length) :
    splitAll sep (front ++ (sep ++ behind)) = front :: splitAll sep behind := by
  have hlength : 0 < sep.length := List.length_pos_iff.2 hsep
  obtain ⟨n, hn⟩ : ∃ n, (front ++ (sep ++ behind)).length = n + 1 :=
    Nat.exists_eq_add_one.2 (by simp only [List.length_append]; omega)
  have hfuel : behind.length ≤ n := by
    simp only [List.length_append] at hn
    omega
  rw [splitAll, hn, splitAllAux, h]
  dsimp only
  rw [List.take_left' rfl, ← List.append_assoc, List.drop_left' (by simp), splitAll,
    splitAllAux_eq hsep hfuel le_rfl]

/-- A separator at the start of a text cuts off nothing. -/
lemma splitAll_append_left (hsep : sep ≠ []) (s : List Char) :
    splitAll sep (sep ++ s) = [] :: splitAll sep s := by
  have hnone : find? sep [] = none := find?_eq_none_iff.2 fun h => hsep (List.infix_nil.1 h)
  exact splitAll_of_find?_eq_some hsep (find?_append_of_none hnone (by simp) (List.prefix_append sep s))

/-- A character with which no separator begins belongs to the first part. -/
lemma splitAll_cons_of_not_isPrefix (hsep : sep ≠ []) (h : ¬ sep <+: c :: s) :
    splitAll sep (c :: s) = (splitAll sep s).modifyHead (List.cons c) := by
  have hfind := find?_cons_of_not_isPrefix h
  cases hs : find? sep s with
  | none =>
    rw [hs] at hfind
    rw [splitAll_of_find?_eq_none hfind, splitAll_of_find?_eq_none hs]
    rfl
  | some i =>
    obtain ⟨front, behind, rfl, rfl⟩ := exists_of_find? hs
    rw [hs] at hfind
    rw [← List.cons_append, splitAll_of_find?_eq_some hsep hfind, splitAll_of_find?_eq_some hsep hs]
    rfl

/-- Writing the separator between two texts joins their parts. -/
lemma splitAll_append (hsep : sep ≠ []) (hlast : ∀ c ∈ a.getLast?, c ∉ sep) (b : List Char) :
    splitAll sep (a ++ (sep ++ b)) = splitAll sep a ++ splitAll sep b := by
  induction hn : a.length using Nat.strong_induction_on generalizing a with
  | _ n ih =>
    cases hfind : find? sep a with
    | none =>
      have hfound := find?_append_of_none hfind hlast (List.prefix_append sep b)
      rw [splitAll_of_find?_eq_some hsep hfound, splitAll_of_find?_eq_none hfind]
      rfl
    | some i =>
      obtain ⟨front, behind, rfl, rfl⟩ := exists_of_find? hfind
      have hfound := find?_append_of_some hfind (sep ++ b)
      have hlength : 0 < sep.length := List.length_pos_iff.2 hsep
      have hshorter : behind.length < n := by
        simp only [List.length_append] at hn
        omega
      have hbehind : ∀ c ∈ behind.getLast?, c ∉ sep := by
        intro c hc
        refine hlast c ?_
        rw [List.getLast?_append, List.getLast?_append, Option.mem_def.1 hc]
        rfl
      rw [List.append_assoc, List.append_assoc] at hfound ⊢
      rw [splitAll_of_find?_eq_some hsep hfound, splitAll_of_find?_eq_some hsep hfind,
        ih behind.length hshorter hbehind rfl, List.cons_append]

/-! ### Blanks -/

/-- A blank in front does not change the trimmed parts. -/
lemma map_trim_splitAll_cons (hsep : sep ≠ []) (hc : isBlank c = true) (hmem : c ∉ sep) (s : List Char) :
    (splitAll sep (c :: s)).map trim = (splitAll sep s).map trim := by
  have hhere : ¬ sep <+: c :: s := not_isPrefix_cons_of_not_mem hsep hmem
  rw [splitAll_cons_of_not_isPrefix hsep hhere]
  cases splitAll sep s with
  | nil => rfl
  | cons part parts => simp [trim_cons_of_isBlank hc]

/-- A blank behind does not change the trimmed parts. -/
lemma map_trim_splitAll_concat (hsep : sep ≠ []) (hc : isBlank c = true) (hmem : c ∉ sep) (s : List Char) :
    (splitAll sep (s ++ [c])).map trim = (splitAll sep s).map trim := by
  induction hn : s.length using Nat.strong_induction_on generalizing s with
  | _ n ih =>
    have hfind := find?_concat_of_not_mem hsep hmem s
    cases h : find? sep s with
    | none =>
      rw [h] at hfind
      rw [splitAll_of_find?_eq_none hfind, splitAll_of_find?_eq_none h]
      simp [trim_concat_of_isBlank hc]
    | some i =>
      obtain ⟨front, behind, rfl, rfl⟩ := exists_of_find? h
      have hlength : 0 < sep.length := List.length_pos_iff.2 hsep
      have hshorter : behind.length < n := by
        simp only [List.length_append] at hn
        omega
      rw [h, List.append_assoc, List.append_assoc] at hfind
      rw [List.append_assoc, List.append_assoc, splitAll_of_find?_eq_some hsep hfind,
        splitAll_of_find?_eq_some hsep h, List.map_cons, List.map_cons, ih behind.length hshorter behind rfl]

end EntityDump.Text
