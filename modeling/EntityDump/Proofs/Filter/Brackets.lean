import EntityDump.Proofs.Filter.Mask
import Mathlib.Data.String.Basic
/-!
# Brackets

What a bracket is in the text of a condition, said without reading it character by character. Brackets nest, and inside
them a quote hides brackets and the other kind of quote up to the next quote of its own kind; a bracket that does not
close goes on to the end of the text. Every text stands outside brackets up to its end, a quote or a bracket that does
not close (`exists_outside`). A mask hides just the brackets (`Closed.hides`, `Unclosed.exists_hides`).
-/

namespace EntityDump

open Text
open String (utf8Len)

namespace Brackets

/-- The content of a bracket that closes behind it. -/
inductive Closed : List Char → Prop
  | nil : Closed []
  | char {c : Char} {s : List Char} : c ≠ '[' → c ≠ ']' → Path.isQuote c = false → Closed s → Closed (c :: s)
  | quoted {q : Char} {hidden s : List Char} : Path.isQuote q = true → q ∉ hidden → Closed s →
      Closed (q :: (hidden ++ q :: s))
  | nested {inner s : List Char} : Closed inner → Closed s → Closed ('[' :: (inner ++ ']' :: s))

/-- The content of a bracket that does not close: the text ends in it, in a quote or in another bracket. -/
inductive Unclosed : List Char → Prop
  | ended {s : List Char} : Closed s → Unclosed s
  | quoted {s hidden : List Char} {q : Char} : Closed s → Path.isQuote q = true → q ∉ hidden →
      Unclosed (s ++ q :: hidden)
  | nested {s inner : List Char} : Closed s → Unclosed inner → Unclosed (s ++ '[' :: inner)

/-- A bracket from its beginning to its end, and the text behind it. -/
inductive Whole : List Char → List Char → Prop
  | closed {inner : List Char} (behind : List Char) : Closed inner → Whole ('[' :: (inner ++ [']'])) behind
  | unclosed {inner : List Char} : Unclosed inner → Whole ('[' :: inner) []

/-- A text without quotes outside brackets, in which every bracket closes. -/
inductive Outside : List Char → Prop
  | nil : Outside []
  | char {c : Char} {s : List Char} : c ≠ '[' → Path.isQuote c = false → Outside s → Outside (c :: s)
  | bracket {inner s : List Char} : Closed inner → Outside s → Outside ('[' :: (inner ++ [']']) ++ s)

/-- A bracket of the text takes up the byte at a position. No quote stands before it outside brackets. -/
def OpenAt (s : List Char) (i : Nat) : Prop :=
  ∃ before whole behind, s = before ++ (whole ++ behind) ∧ Outside before ∧ Whole whole behind ∧
    utf8Len before ≤ i ∧ i < utf8Len before + utf8Len whole

variable {s s' : List Char} {i : Nat}

/-! ### Every text has its brackets -/

/-- Contents of brackets that close may stand in one bracket, one after the other. -/
lemma Closed.append (h : Closed s) (h' : Closed s') : Closed (s ++ s') := by
  induction h with
  | nil => exact h'
  | char hopening hclosing hquote _ ih => exact .char hopening hclosing hquote ih
  | quoted hq hhidden _ ih => simpa using Closed.quoted hq hhidden ih
  | nested hinner _ _ ih => simpa using Closed.nested hinner ih

/-- More content may come first in a bracket that does not close. -/
lemma Unclosed.append_left (h : Closed s) (h' : Unclosed s') : Unclosed (s ++ s') := by
  cases h' with
  | ended h' => exact .ended (h.append h')
  | quoted h' hq hhidden =>
    rw [← List.append_assoc]
    exact .quoted (h.append h') hq hhidden
  | nested h' hinner =>
    rw [← List.append_assoc]
    exact .nested (h.append h') hinner

/-- Behind the beginning of a bracket it closes or does not. -/
def Ends (s : List Char) : Prop :=
  (∃ inner behind, s = inner ++ ']' :: behind ∧ Closed inner) ∨ Unclosed s

/-- More content of a bracket may come before its end, if it has one. -/
lemma Ends.append_left (h : Closed s) : Ends s' → Ends (s ++ s')
  | .inl ⟨inner, behind, hsplit, hinner⟩ => .inl ⟨s ++ inner, behind, by simp [hsplit], h.append hinner⟩
  | .inr hs' => .inr (.append_left h hs')

/-- Every text that follows a bracket closes it or does not. -/
theorem ends (s : List Char) : Ends s := by
  -- Behind what is closed less of the text is left.
  induction hn : s.length using Nat.strong_induction_on generalizing s with
  | _ n ih =>
    subst hn
    cases s with
    | nil => exact .inr (.ended .nil)
    | cons c s =>
      have hrest : ∀ front {behind : List Char}, s = front ++ behind → Ends behind := by
        rintro front behind rfl
        exact ih _ (by simp only [List.length_cons, List.length_append]; omega) behind rfl
      by_cases hclosing : c = ']'
      · exact .inl ⟨[], s, by rw [hclosing]; rfl, .nil⟩
      by_cases hopening : c = '['
      · subst hopening
        rcases hrest [] rfl with ⟨inner, behind, rfl, hinner⟩ | hs
        · simpa using Ends.append_left (.nested hinner .nil) (hrest (inner ++ [']']) (by simp))
        · exact .inr (.nested .nil hs)
      by_cases hquote : Path.isQuote c = true
      · by_cases hmem : c ∈ s
        · obtain ⟨hidden, behind, rfl, hhidden⟩ := List.eq_append_cons_of_mem hmem
          simpa using Ends.append_left (.quoted hquote hhidden .nil) (hrest (hidden ++ [c]) (by simp))
        · exact .inr (.quoted .nil hquote hmem)
      · have hplain : Closed [c] := .char hopening hclosing (by simpa using hquote) .nil
        exact Ends.append_left hplain (hrest [] rfl)

/-- Every text stands outside brackets up to its end, a quote or a bracket that does not close. -/
theorem exists_outside (s : List Char) :
    ∃ before rest, s = before ++ rest ∧ Outside before ∧
      (rest = [] ∨ (∃ q ∈ rest.head?, Path.isQuote q = true) ∨ ∃ inner, rest = '[' :: inner ∧ Unclosed inner) := by
  induction hn : s.length using Nat.strong_induction_on generalizing s with
  | _ n ih =>
    subst hn
    cases s with
    | nil => exact ⟨[], [], rfl, .nil, .inl rfl⟩
    | cons c s =>
      by_cases hquote : Path.isQuote c = true
      · exact ⟨[], c :: s, rfl, .nil, .inr (.inl ⟨c, rfl, hquote⟩)⟩
      by_cases hopening : c = '['
      · subst hopening
        rcases ends s with ⟨inner, behind, rfl, hinner⟩ | hs
        · have hshorter : behind.length < ('[' :: (inner ++ ']' :: behind)).length := by
            simp only [List.length_cons, List.length_append]
            omega
          obtain ⟨before, rest, rfl, hbefore, hrest⟩ := ih _ hshorter behind rfl
          exact ⟨_, rest, by simp, .bracket hinner hbefore, hrest⟩
        · exact ⟨[], _, rfl, .nil, .inr (.inr ⟨s, rfl, hs⟩)⟩
      · obtain ⟨before, rest, rfl, hbefore, hrest⟩ := ih _ (Nat.lt_succ_self s.length) s rfl
        exact ⟨c :: before, rest, rfl, .char hopening (by simpa using hquote) hbefore, hrest⟩

/-- Two texts outside brackets may stand one after the other. -/
lemma Outside.append (h : Outside s) (h' : Outside s') : Outside (s ++ s') := by
  induction h with
  | nil => exact h'
  | char hopening hquote _ ih => exact .char hopening hquote ih
  | bracket hinner _ ih =>
    rw [List.append_assoc]
    exact .bracket hinner ih

/-- A bracket further back is the same one. -/
lemma OpenAt.append_left (h : Outside s) : OpenAt s' i → OpenAt (s ++ s') (utf8Len s + i) := by
  rintro ⟨before, whole, behind, rfl, hbefore, hwhole, hle, hlt⟩
  refine ⟨s ++ before, whole, behind, (List.append_assoc _ _ _).symm, h.append hbefore, hwhole, ?_⟩
  rw [String.utf8Len_append]
  omega

end Brackets

/-! ### What a mask hides -/

namespace Mask

variable {m next mid last : Mask} {s s' : List Char} {c q : Char} {depth : Nat}

/-- Of a text nothing is shown. -/
def Hides (m : Mask) (s : List Char) (last : Mask) : Prop :=
  Shows m s (List.replicate s.length maskChar) last

/-- A character is hidden if a bracket is open before or behind it. -/
lemma Hides.cons (hnext : m.next? c = some next) (hdepth : 0 < m.depth ∨ 0 < next.depth) (h : Hides next s last) :
    Hides m (c :: s) last := by
  have hcons := Shows.cons hnext h
  rwa [if_pos (by simpa using hdepth)] at hcons

/-- Two texts that are hidden are hidden one after the other. -/
lemma Hides.append (h : Hides m s mid) (h' : Hides mid s' last) : Hides m (s ++ s') last := by
  unfold Hides
  rw [List.length_append, ← List.replicate_append_replicate]
  exact Shows.append h h'

/-- Up to the next quote of its kind a quote hides everything. -/
lemma hides_of_quote (hdepth : 0 < depth) (h : q ∉ s) : Hides ⟨depth, some q⟩ s ⟨depth, some q⟩ := by
  refine shows_inside hdepth fun c hc => ?_
  have hne : c ≠ q := by
    rintro rfl
    exact h hc
  simp [next?, hne]

lemma next?_opening (depth : Nat) : next? ⟨depth, none⟩ '[' = some ⟨depth + 1, none⟩ := rfl

lemma next?_closing (depth : Nat) : next? ⟨depth + 1, none⟩ ']' = some ⟨depth, none⟩ := rfl

/-- A quote in a bracket is open behind it. -/
lemma next?_quote (hq : Path.isQuote q = true) (hdepth : 0 < depth) :
    next? ⟨depth, none⟩ q = some ⟨depth, some q⟩ := by
  rcases Path.isQuote_iff.1 hq with rfl | rfl <;> simp [next?, Path.isQuote, hdepth]

end Mask

namespace Brackets

open Mask (Hides Shows)

variable {s inner whole behind : List Char} {depth : Nat}

/-- The content of a bracket that closes is hidden, and the bracket is open behind it as before. -/
lemma Closed.hides (h : Closed s) (hdepth : 0 < depth) : Hides ⟨depth, none⟩ s ⟨depth, none⟩ := by
  induction h generalizing depth with
  | nil => exact .nil _
  | char hopening hclosing hquote _ ih =>
    exact .cons (by simp [Mask.next?, hopening, hclosing, hquote]) (.inl hdepth) (ih hdepth)
  | @quoted q hidden s hq hhidden _ ih =>
    have hback : Mask.next? ⟨depth, some q⟩ q = some ⟨depth, none⟩ := by simp [Mask.next?]
    exact .cons (Mask.next?_quote hq hdepth) (.inl hdepth)
      ((Mask.hides_of_quote hdepth hhidden).append (.cons hback (.inl hdepth) (ih hdepth)))
  | nested _ _ ihInner ih =>
    exact .cons (Mask.next?_opening depth) (.inl hdepth)
      ((ihInner (Nat.succ_pos depth)).append (.cons (Mask.next?_closing depth) (.inl (Nat.succ_pos depth)) (ih hdepth)))

/-- The content of a bracket that does not close is hidden. -/
lemma Unclosed.exists_hides (h : Unclosed s) (hdepth : 0 < depth) : ∃ last, Hides ⟨depth, none⟩ s last := by
  induction h generalizing depth with
  | ended hs => exact ⟨_, hs.hides hdepth⟩
  | quoted hs hq hhidden =>
    exact ⟨_, (hs.hides hdepth).append (.cons (Mask.next?_quote hq hdepth) (.inl hdepth)
      (Mask.hides_of_quote hdepth hhidden))⟩
  | nested hs _ ih =>
    obtain ⟨last, hlast⟩ := ih (Nat.succ_pos depth)
    exact ⟨last, (hs.hides hdepth).append (.cons (Mask.next?_opening depth) (.inl hdepth) hlast)⟩

/-- A bracket that closes is hidden with its ends. -/
lemma hides_bracket (h : Closed inner) : Hides {} ('[' :: (inner ++ [']'])) {} :=
  .cons (Mask.next?_opening 0) (.inr Nat.one_pos)
    ((h.hides Nat.one_pos).append (.cons (Mask.next?_closing 0) (.inl Nat.one_pos) (.nil _)))

/-- A bracket is hidden from its beginning to its end. -/
lemma Whole.exists_hides (h : Whole whole behind) : ∃ last, Hides {} whole last := by
  cases h with
  | closed _ hinner => exact ⟨_, hides_bracket hinner⟩
  | unclosed hinner =>
    obtain ⟨last, hlast⟩ := hinner.exists_hides Nat.one_pos
    exact ⟨last, .cons (Mask.next?_opening 0) (.inr Nat.one_pos) hlast⟩

/-- Outside brackets a closing one stands for itself, as any other character does. -/
lemma shows_char {c : Char} (hopening : c ≠ '[') (hquote : Path.isQuote c = false) : Shows {} [c] [c] {} := by
  have hnext : Mask.next? {} c = some {} := by
    by_cases hclosing : c = ']' <;> simp [Mask.next?, hopening, hclosing, hquote]
  exact .cons hnext (.nil _)

/-- Outside brackets no bracket is open. -/
lemma Outside.exists_shows (h : Outside s) : ∃ out, Shows {} s out {} := by
  induction h with
  | nil => exact ⟨[], .nil _⟩
  | char hopening hquote _ ih =>
    obtain ⟨out, hout⟩ := ih
    exact ⟨_, (shows_char hopening hquote).append hout⟩
  | bracket hinner _ ih =>
    obtain ⟨out, hout⟩ := ih
    exact ⟨_, Shows.append (hides_bracket hinner) hout⟩

end Brackets

end EntityDump
