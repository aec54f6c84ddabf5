import EntityDump.Filter.Condition
import EntityDump.Proofs.Path.Grammar
/-!
# Masks

The mask that hides the brackets of a condition's text goes through the text piece by piece (`Shows`). It keeps a
quote open in brackets only (`Proper`), so what is shown as it is stands behind closed brackets
(`exists_shows_of_shown`).
-/

namespace EntityDump.Mask

open Text

variable {m next mid last : Mask} {c : Char} {s s' out out' : List Char}

/-! ### What is shown -/

/-- Reading a text takes the mask from one state to another and shows a character for each of the text. -/
inductive Shows : Mask → List Char → List Char → Mask → Prop
  | nil (m : Mask) : Shows m [] [] m
  | cons {m next last : Mask} {c : Char} {s out : List Char} : m.next? c = some next →
      Shows next s out last →
      Shows m (c :: s) ((if m.depth > 0 || next.depth > 0 then maskChar else c) :: out) last

/-- Of a text that is read to its end as much is shown as there is. -/
lemma Shows.length_eq (h : Shows m s out last) : out.length = s.length := by
  induction h with
  | nil => rfl
  | cons _ _ ih => rw [List.length_cons, List.length_cons, ih]

/-- Two texts are read one after the other. -/
lemma Shows.append (h : Shows m s out mid) (h' : Shows mid s' out' last) :
    Shows m (s ++ s') (out ++ out') last := by
  induction h with
  | nil => exact h'
  | cons hnext _ ih => exact .cons hnext (ih h')

/-- What is shown of a text stands before what is shown of the rest. -/
lemma Shows.apply_append (h : Shows m s out last) (rest : List Char) :
    m.apply (s ++ rest) = out ++ last.apply rest := by
  induction h with
  | nil => rfl
  | cons hnext _ ih =>
    rw [List.cons_append, Mask.apply, hnext]
    dsimp only
    rw [ih, List.cons_append]

/-- What is shown of a text that is read to its end is what the mask makes of it. -/
lemma Shows.apply_eq (h : Shows m s out last) : m.apply s = out := by
  have happend := h.apply_append []
  rwa [List.append_nil, apply, List.append_nil] at happend

/-- In a bracket nothing is shown. -/
lemma shows_inside (hdepth : m.depth > 0) (h : ∀ c ∈ s, m.next? c = some m) :
    Shows m s (List.replicate s.length maskChar) m := by
  induction s with
  | nil => exact .nil m
  | cons c s ih =>
    obtain ⟨hc, hs⟩ := List.forall_mem_cons.1 h
    have hcons := Shows.cons hc (ih hs)
    rwa [if_pos (by simpa using hdepth)] at hcons

/-- Outside brackets everything is shown that is neither a bracket nor a quote. -/
lemma shows_outside (h : ∀ c ∈ s, c ≠ '[' ∧ c ≠ ']' ∧ Path.isQuote c = false) : Shows {} s s {} := by
  induction s with
  | nil => exact .nil _
  | cons c s ih =>
    obtain ⟨hc, hs⟩ := List.forall_mem_cons.1 h
    exact .cons (by simp [next?, hc]) (ih hs)

/-- No more is shown than there is. -/
lemma length_apply_le (m : Mask) (s : List Char) : (m.apply s).length ≤ s.length := by
  induction s generalizing m with
  | nil => exact Nat.le_refl 0
  | cons c s ih =>
    rw [apply]
    split
    · exact Nat.zero_le _
    · exact Nat.succ_le_succ (ih _)

/-- The scan goes on until it ends, so what stands before its end is shown. -/
lemma exists_shows_of_length_le {rest : List Char} (h : s.length ≤ (m.apply (s ++ rest)).length) :
    ∃ out last, Shows m s out last := by
  induction s generalizing m with
  | nil => exact ⟨[], m, .nil m⟩
  | cons c s ih =>
    rw [List.cons_append, apply] at h
    cases hnext : m.next? c with
    | none =>
      rw [hnext] at h
      exact absurd h (Nat.not_succ_le_zero _)
    | some next =>
      rw [hnext] at h
      obtain ⟨out, last, hshows⟩ := ih (Nat.le_of_succ_le_succ h)
      exact ⟨_, last, .cons hnext hshows⟩

/-- What is shown is hidden or stands in the text. -/
lemma Shows.mem (h : Shows m s out last) : ∀ c ∈ out, c = maskChar ∨ c ∈ s := by
  induction h with
  | nil => simp
  | cons _ _ ih =>
    refine List.forall_mem_cons.2 ⟨?_, fun c hc => (ih c hc).imp_right (List.mem_cons_of_mem _)⟩
    split
    · exact .inl rfl
    · exact .inr List.mem_cons_self

/-- What is shown as it is stands outside brackets. -/
lemma depth_eq_zero_of_apply (h : c ∈ (m.apply s).head?) (hc : c ≠ maskChar) : m.depth = 0 := by
  cases s with
  | nil => cases h
  | cons d s =>
    rw [apply] at h
    cases hnext : m.next? d with
    | none =>
      rw [hnext] at h
      cases h
    | some next =>
      rw [hnext] at h
      by_contra hdepth
      have hshown : (decide (m.depth > 0) || decide (next.depth > 0)) = true := by
        simp [Nat.pos_of_ne_zero hdepth]
      dsimp only at h
      rw [if_pos hshown] at h
      exact hc (Option.some.inj h).symm

/-! ### Open quotes -/

/-- Quotes are open in brackets only. -/
def Proper (m : Mask) : Prop :=
  ∀ q ∈ m.quote, 0 < m.depth ∧ Path.isQuote q = true

lemma proper_start : Proper {} := by
  rintro q ⟨⟩

/-- A character keeps a quote open in brackets only. -/
lemma Proper.step (hm : m.Proper) (h : m.next? c = some mid) : mid.Proper := by
  obtain ⟨depth, quote⟩ := m
  cases quote with
  | some q =>
    simp only [next?, Option.some.injEq] at h
    subst h
    split
    · rintro _ ⟨⟩
    · exact hm
  | none =>
    simp only [next?] at h
    split_ifs at h with hopening hclosing hquote hdepth <;> obtain rfl := Option.some.inj h
    · rintro _ ⟨⟩
    · rintro _ ⟨⟩
    · rintro _ ⟨⟩
      exact ⟨hdepth, hquote⟩
    · rintro _ ⟨⟩

/-- So does a text. -/
lemma Shows.proper (h : Shows m s out last) (hm : m.Proper) : last.Proper := by
  induction h with
  | nil => exact hm
  | cons hnext _ ih => exact ih (hm.step hnext)

/-- Behind all its brackets the mask is as at the start. -/
lemma Proper.eq_start (hm : m.Proper) (hdepth : m.depth = 0) : m = {} := by
  obtain ⟨depth, quote⟩ := m
  obtain rfl : depth = 0 := hdepth
  cases quote with
  | none => rfl
  | some q => exact absurd (hm q rfl).1 (Nat.lt_irrefl 0)

/-- What is neither a bracket nor a quote changes nothing. -/
lemma Proper.next?_of_plain (hm : m.Proper) (hopening : c ≠ '[') (hclosing : c ≠ ']')
    (hquote : Path.isQuote c = false) : m.next? c = some m := by
  obtain ⟨depth, quote⟩ := m
  cases quote with
  | some q =>
    have hcq : c ≠ q := by
      rintro rfl
      exact Bool.noConfusion (hquote.symm.trans (hm c rfl).2)
    simp [next?, hcq]
  | none => simp [next?, hopening, hclosing, hquote]

/-- Blanks are neither brackets nor quotes. -/
lemma Proper.next?_of_isBlank (hm : m.Proper) (hc : isBlank c = true) : m.next? c = some m := by
  have hne : ∀ d, isBlank d = false → c ≠ d := by
    rintro d hd rfl
    exact Bool.noConfusion (hc.symm.trans hd)
  have hquote : Path.isQuote c = false :=
    Bool.eq_false_iff.2 fun hq => hne c (Path.isBlank_of_isQuote hq) rfl
  exact hm.next?_of_plain (hne '[' (by decide)) (hne ']' (by decide)) hquote

/-- Blanks are read in every state and change none. -/
lemma Proper.exists_shows_of_isBlank (hm : m.Proper) (h : ∀ c ∈ s, isBlank c = true) :
    ∃ out, Shows m s out m := by
  induction s with
  | nil => exact ⟨[], .nil m⟩
  | cons c s ih =>
    obtain ⟨hc, hs⟩ := List.forall_mem_cons.1 h
    obtain ⟨out, hshows⟩ := ih hs
    exact ⟨_, .cons (hm.next?_of_isBlank hc) hshows⟩

/-- If a character is shown as it is behind a text and blanks, the text closes its brackets. -/
lemma exists_shows_of_shown {name blanks rest : List Char} (hblanks : ∀ c ∈ blanks, isBlank c = true)
    (h : c ∈ ((operatorScan (name ++ (blanks ++ rest))).drop (name.length + blanks.length)).head?)
    (hc : c ≠ maskChar) : ∃ front, Shows {} name front {} := by
  have hlength : name.length ≤ (apply {} (name ++ (blanks ++ rest))).length := by
    by_contra hle
    rw [operatorScan, List.drop_eq_nil_of_le (by omega)] at h
    cases h
  obtain ⟨front, mid, hfront⟩ := exists_shows_of_length_le hlength
  have hmid := hfront.proper proper_start
  obtain ⟨out, hout⟩ := hmid.exists_shows_of_isBlank hblanks
  have hsum : name.length + blanks.length = (front ++ out).length := by
    rw [List.length_append, hfront.length_eq, hout.length_eq]
  rw [operatorScan, hfront.apply_append, hout.apply_append, ← List.append_assoc, hsum, List.drop_left] at h
  obtain rfl := hmid.eq_start (depth_eq_zero_of_apply h hc)
  exact ⟨front, hfront⟩

end EntityDump.Mask
