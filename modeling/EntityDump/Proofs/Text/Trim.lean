import EntityDump.Text.Blank
import Mathlib.Data.List.TakeWhile
/-!
# Trimming

Trimming cuts off nothing but blanks (`exists_trim`), whatever blanks stand at the ends (`trim_append`), and
leaves alone what neither begins nor ends with one (`trim_eq_self`). So a trimmed text stays as it is.
-/

namespace EntityDump.Text

variable {s before behind : List Char} {c : Char}

/-- A text that does not begin with a blank keeps its beginning. -/
lemma trimStart_eq_self (h : ∀ c ∈ s.head?, isBlank c = false) : trimStart s = s := by
  cases s with
  | nil => rfl
  | cons c s => simp [trimStart, h c rfl]

/-- Where no end is blank there is nothing to trim. -/
lemma trim_eq_self (hhead : ∀ c ∈ s.head?, isBlank c = false)
    (hlast : ∀ c ∈ s.getLast?, isBlank c = false) : trim s = s := by
  have hreverse : s.reverse.dropWhile isBlank = s.reverse :=
    trimStart_eq_self (by rwa [List.head?_reverse])
  rw [trim, trimStart_eq_self hhead, trimEnd, hreverse, List.reverse_reverse]

/-- No blank stands at the ends of a text without blanks. -/
lemma trim_of_forall (h : ∀ c ∈ s, isBlank c = false) : trim s = s :=
  trim_eq_self (fun c hc => h c (List.mem_of_head? hc)) fun c hc => h c (List.mem_of_getLast? hc)

/-- Blanks in front are cut off. -/
lemma trimStart_append (h : ∀ c ∈ before, isBlank c = true) (s : List Char) :
    trimStart (before ++ s) = trimStart s :=
  List.dropWhile_append_of_pos h

/-- Blanks behind are cut off. -/
lemma trimEnd_append (h : ∀ c ∈ behind, isBlank c = true) (s : List Char) :
    trimEnd (s ++ behind) = trimEnd s := by
  rw [trimEnd, List.reverse_append, List.dropWhile_append_of_pos (by simpa using h), trimEnd]

/-- Blanks at either end make no difference. -/
lemma trim_append (hbefore : ∀ c ∈ before, isBlank c = true) (hbehind : ∀ c ∈ behind, isBlank c = true)
    (s : List Char) : trim (before ++ (s ++ behind)) = trim s := by
  rw [trim, trim, trimStart_append hbefore, trimStart, trimStart, List.dropWhile_append]
  cases hs : s.dropWhile isBlank with
  | nil => rw [List.isEmpty_nil, if_pos rfl, (dropWhile_isBlank_eq_nil_iff behind).2 hbehind]
  | cons c rest => simpa using trimEnd_append hbehind (c :: rest)

/-- A blank in front does not matter. -/
lemma trim_cons_of_isBlank (hc : isBlank c = true) (s : List Char) : trim (c :: s) = trim s := by
  have hbefore : ∀ d ∈ [c], isBlank d = true := by simpa using hc
  simpa using trim_append hbefore (List.forall_mem_nil _) s

/-- A blank behind does not matter. -/
lemma trim_concat_of_isBlank (hc : isBlank c = true) (s : List Char) : trim (s ++ [c]) = trim s :=
  trim_append (List.forall_mem_nil _) (by simpa using hc) s

/-- A text is its trimmed part between blanks. -/
lemma exists_trim (s : List Char) :
    ∃ before behind, (∀ c ∈ before, isBlank c = true) ∧ (∀ c ∈ behind, isBlank c = true) ∧
      s = before ++ (trim s ++ behind) := by
  refine ⟨s.takeWhile isBlank, ((trimStart s).reverse.takeWhile isBlank).reverse,
    fun c hc => List.mem_takeWhile_imp hc,
    fun c hc => List.mem_takeWhile_imp (List.mem_reverse.1 hc), ?_⟩
  rw [trim, trimEnd, ← List.reverse_append, List.takeWhile_append_dropWhile, List.reverse_reverse,
    trimStart, List.takeWhile_append_dropWhile]

/-- A text that does not begin with a blank is its trimmed part and blanks behind it. -/
lemma exists_trim_of_head? (h : ∀ c ∈ s.head?, isBlank c = false) :
    ∃ behind, (∀ c ∈ behind, isBlank c = true) ∧ s = trim s ++ behind := by
  obtain ⟨before, behind, hbefore, hbehind, hsplit⟩ := exists_trim s
  cases before with
  | nil => exact ⟨behind, hbehind, hsplit⟩
  | cons c before =>
    have hblank := hbefore c List.mem_cons_self
    rw [h c (by rw [hsplit]; rfl)] at hblank
    contradiction

/-- A trimmed text does not end in a blank. -/
lemma isBlank_last_trim (s : List Char) : ∀ c ∈ (trim s).getLast?, isBlank c = false := by
  intro c hc
  rw [trim, trimEnd, List.getLast?_reverse] at hc
  have := List.head?_dropWhile_not isBlank (trimStart s).reverse
  rwa [Option.mem_def.1 hc] at this

/-- A trimmed text does not begin with a blank. -/
lemma isBlank_head_trim (s : List Char) : ∀ c ∈ (trim s).head?, isBlank c = false := by
  intro c hc
  -- what is left by trimming the end begins as the text did
  have hstart : trim s <+: trimStart s := by
    have hsuffix := List.dropWhile_suffix isBlank (l := (trimStart s).reverse)
    simpa [trim, trimEnd] using List.reverse_prefix.2 hsuffix
  obtain ⟨rest, hrest⟩ := hstart
  have := List.head?_dropWhile_not isBlank s
  rwa [← trimStart, ← hrest, List.head?_append, Option.mem_def.1 hc] at this

/-- A text is trimmed exactly if it neither begins with a blank nor ends in one. -/
lemma trim_eq_self_iff :
    trim s = s ↔ (∀ c ∈ s.head?, isBlank c = false) ∧ ∀ c ∈ s.getLast?, isBlank c = false := by
  constructor
  · intro h
    rw [← h]
    exact ⟨isBlank_head_trim s, isBlank_last_trim s⟩
  · rintro ⟨hhead, hlast⟩
    exact trim_eq_self hhead hlast

/-- Trimming a second time changes nothing. -/
lemma trim_trim (s : List Char) : trim (trim s) = trim s :=
  trim_eq_self (isBlank_head_trim s) (isBlank_last_trim s)

end EntityDump.Text
