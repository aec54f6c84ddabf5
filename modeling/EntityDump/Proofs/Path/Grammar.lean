import EntityDump.Path.Parser
import EntityDump.Proofs.Numeric.Digits
import EntityDump.Proofs.Text.Trim
/-!
# The grammar of path expressions

The text of a path is a list of steps: keys, and brackets with a star, an index or a key in quotes. A dot stands
before a key that is not the first step, and may stand before a bracket that is not (`Spells`). The reader
accepts these texts and no others, and reads them as their steps (`parse_eq_ok_iff`).

A bracket ends at the first closing bracket that does not stand behind an open quote (`Closes`); what may stand
inside is read back from the grammar by itself (`selects_iff`). Between two steps the scanner holds a key or
stands behind a bracket (`Scanner.Ready`).
-/

namespace EntityDump.Path

open Numeric Text

/-! ### Texts of paths -/

/-- What stands in a pair of brackets selects a segment. -/
inductive Selects : List Char → Segment → Prop
  | star {before behind : List Char} : (∀ c ∈ before, isBlank c = true) →
      (∀ c ∈ behind, isBlank c = true) → Selects (before ++ (['*'] ++ behind)) .wildcard
  /-- A number of 64 bits. -/
  | index {before sign digits behind : List Char} : (∀ c ∈ before, isBlank c = true) →
      sign = [] ∨ sign = ['+'] → isDigitRun digits = true → digitsValue digits < Nat.pow 2 64 →
      (∀ c ∈ behind, isBlank c = true) →
      Selects (before ++ ((sign ++ digits) ++ behind)) (.index (digitsValue digits))
  /-- A key in quotes. Its quote and a closing bracket behind it would end the key. -/
  | key {before name : List Char} {q : Char} : (∀ c ∈ before, isBlank c = true) → isQuote q = true →
      ¬ [q, ']'] <:+: name → Selects (before ++ q :: (name ++ [q])) (.key (String.ofList name))

/-- A text, or what is left of one that has begun, spells segments. -/
inductive Spells : Bool → List Char → List Segment → Prop
  | nil (begun : Bool) : Spells begun [] []
  | key {name rest : List Char} {segments : List Segment} : name ≠ [] →
      (∀ c ∈ name, isSpecial c = false) → Spells true rest segments →
      Spells false (name ++ rest) (.key (String.ofList name) :: segments)
  | bracket {begun : Bool} {inner rest : List Char} {segment : Segment} {segments : List Segment} :
      Selects inner segment → Spells true rest segments →
      Spells begun ('[' :: (inner ++ ']' :: rest)) (segment :: segments)
  | dot {text : List Char} {segments : List Segment} : text ≠ [] → Spells false text segments →
      Spells true ('.' :: text) segments

variable {inner chars rest text name digits before : List Char} {segment : Segment} {segments : List Segment}
  {q : Char} {s : Scanner} {begun : Bool}

/-- A star alone selects the wildcard. -/
lemma selects_star : Selects ['*'] .wildcard :=
  .star (List.forall_mem_nil _) (List.forall_mem_nil _)

/-- Digits of a number of 64 bits select its index. -/
lemma selects_index (hdigits : isDigitRun digits = true) (hlt : digitsValue digits < Nat.pow 2 64) :
    Selects digits (.index (digitsValue digits)) := by
  have hindex := Selects.index (List.forall_mem_nil _) (.inl rfl) hdigits hlt (List.forall_mem_nil _)
  rwa [List.nil_append, List.nil_append, List.append_nil] at hindex

/-- A name in quotes selects its key, unless a closing bracket stands right behind the quote inside it. -/
lemma selects_key (hq : isQuote q = true) (hname : ¬ [q, ']'] <:+: name) :
    Selects (q :: (name ++ [q])) (.key (String.ofList name)) :=
  .key (List.forall_mem_nil _) hq hname

/-! ### Where a bracket ends -/

/-- No quote is open at the end of the content, and one is before each closing bracket inside. -/
structure Closes (inner : List Char) : Prop where
  closed : hasOpenQuote inner = false
  inside : ∀ before after, inner = before ++ ']' :: after → hasOpenQuote before = true

/-- Content without open quote and without closing bracket runs up to the bracket behind it. -/
lemma closes_of_notMem (hclosed : hasOpenQuote inner = false) (h : ']' ∉ inner) : Closes inner where
  closed := hclosed
  inside := by
    rintro before after rfl
    exact absurd (List.mem_append_right before List.mem_cons_self) h

/-- The scanner takes content up to the bracket that closes it. -/
lemma takeBracket_of_closes (h : Closes inner) (rest : List Char) :
    takeBracket [] (inner ++ ']' :: rest) = some (inner, rest) := by
  suffices htake : ∀ after reversed, inner = reversed.reverse ++ after →
      takeBracket reversed (after ++ ']' :: rest) = some (inner, rest) from htake inner [] rfl
  intro after
  induction after with
  | nil =>
    intro reversed hinner
    rw [List.append_nil] at hinner
    simp [takeBracket, ← hinner, h.closed]
  | cons c after ih =>
    intro reversed hinner
    have hc : (c = ']' && !hasOpenQuote reversed.reverse) = false := by
      by_cases hc : c = ']'
      · subst hc
        simp [h.inside _ _ hinner]
      · simp [hc]
    rw [List.cons_append, takeBracket, hc, if_neg Bool.false_ne_true]
    exact ih (c :: reversed) (by simp [hinner])

/-- What the scanner takes from a bracket closes there, and the rest stands behind the closing bracket. -/
lemma closes_of_takeBracket (h : takeBracket [] chars = some (inner, rest)) :
    Closes inner ∧ chars = inner ++ ']' :: rest := by
  suffices htake : ∀ chars reversed, takeBracket reversed chars = some (inner, rest) →
      ∃ more, inner = reversed.reverse ++ more ∧ chars = more ++ ']' :: rest ∧
        hasOpenQuote inner = false ∧
        ∀ before after, more = before ++ ']' :: after → hasOpenQuote (reversed.reverse ++ before) = true by
    obtain ⟨more, rfl, rfl, hclosed, hinside⟩ := htake chars [] h
    exact ⟨⟨hclosed, hinside⟩, rfl⟩
  intro chars
  induction chars with
  | nil => simp [takeBracket]
  | cons c chars ih =>
    intro reversed h
    rw [takeBracket] at h
    split at h
    · next hc =>
      obtain ⟨rfl, hopen⟩ : c = ']' ∧ hasOpenQuote reversed.reverse = false := by simpa using hc
      obtain ⟨rfl, rfl⟩ : reversed.reverse = inner ∧ chars = rest := by simpa using h
      exact ⟨[], by simp, rfl, hopen, by simp⟩
    · next hc =>
      obtain ⟨more, hinner, rfl, hclosed, hinside⟩ := ih (c :: reversed) h
      refine ⟨c :: more, by simpa using hinner, rfl, hclosed, fun before after hsplit => ?_⟩
      cases before with
      | nil =>
        obtain ⟨rfl, -⟩ := List.cons.inj hsplit
        simpa using hc
      | cons d before =>
        obtain ⟨rfl, hmore⟩ := List.cons.inj hsplit
        simpa using hinside before after hmore

/-! ### Quotes -/

/-- There are two quotes, the single one and the double one. -/
lemma isQuote_iff : isQuote q = true ↔ q = '\'' ∨ q = '"' := by
  rw [isQuote, Bool.or_eq_true, beq_iff_eq, beq_iff_eq]

/-- Quotes are not blank, so they survive trimming. -/
lemma isBlank_of_isQuote (h : isQuote q = true) : isBlank q = false := by
  rcases isQuote_iff.1 h with rfl | rfl <;> decide

/-- Blanks in front do not matter for an open quote. -/
lemma hasOpenQuote_append (h : ∀ c ∈ before, isBlank c = true) (s : List Char) :
    hasOpenQuote (before ++ s) = hasOpenQuote s := by
  rw [hasOpenQuote, trimStart_append h, hasOpenQuote]

/-- Content that does not begin with a blank has an open quote if it begins with a quote and does not end in the same
one. -/
lemma hasOpenQuote_cons {c : Char} (h : isBlank c = false) (s : List Char) :
    hasOpenQuote (c :: s) = (isQuote c && s.getLast? != some c) := by
  rw [hasOpenQuote, trimStart_eq_self (by simpa using h)]

/-- An ending can be dropped exactly where the text has it. -/
lemma dropEnd?_eq_some_iff {tail s r : List Char} : dropEnd? tail s = some r ↔ s = r ++ tail := by
  rw [dropEnd?, Option.map_eq_some_iff]
  constructor
  · rintro ⟨t, ht, rfl⟩
    have := congrArg List.reverse (dropStart?_eq_some_iff.1 ht)
    simpa using this
  · rintro rfl
    exact ⟨r.reverse, dropStart?_eq_some_iff.2 (by simp), List.reverse_reverse r⟩

/-- A name in quotes has nothing to trim. -/
lemma trim_quoted (hq : isQuote q = true) (name : List Char) : trim (q :: (name ++ [q])) = q :: (name ++ [q]) := by
  have hblank := isBlank_of_isQuote hq
  refine trim_eq_self (by simpa using hblank) ?_
  rw [← List.cons_append, List.getLast?_concat]
  simpa using hblank

/-- A text in quotes is the quote, the name and the quote again. -/
lemma unquote?_eq_some_iff : unquote? q chars = some name ↔ chars = q :: (name ++ [q]) := by
  cases chars with
  | nil => simp [unquote?]
  | cons c s =>
    rw [unquote?]
    split
    · next hc => simp [hc, dropEnd?_eq_some_iff]
    · next hc => simp [hc]

/-! ### Selectors -/

/-- Blanks hold no closing bracket. -/
lemma notMem_of_isBlank (h : ∀ c ∈ before, isBlank c = true) : ']' ∉ before := fun hmem =>
  absurd (h _ hmem) (by decide)

lemma star_chars : ∀ c ∈ ['*'], isBlank c = false ∧ isQuote c = false ∧ isSpecial c = false :=
  List.forall_mem_singleton.2 (by decide)

/-- The characters of an index. -/
lemma index_chars {sign digits : List Char} (hsign : sign = [] ∨ sign = ['+'])
    (hdigits : isDigitRun digits = true) :
    ∀ c ∈ sign ++ digits, isBlank c = false ∧ isQuote c = false ∧ isSpecial c = false := by
  intro c hc
  rcases List.mem_append.1 hc with hc | hc
  · rcases hsign with rfl | rfl
    · cases hc
    · rw [List.mem_singleton.1 hc]
      decide
  · have hdigit := (isDigitRun_iff.1 hdigits).2 c hc
    have hne : ∀ d, isAsciiDigit d = false → (c == d) = false := by
      rintro d hd
      rw [beq_eq_false_iff_ne]
      rintro rfl
      exact absurd hdigit (by simp [hd])
    refine ⟨isBlank_of_isAsciiDigit hdigit, ?_, ?_⟩
    · rw [isQuote, hne '\'' (by decide), hne '"' (by decide), Bool.or_self]
    · rw [isSpecial, hne '.' (by decide), hne '[' (by decide), hne ']' (by decide), Bool.or_self, Bool.or_self]

/-- Without quotes the first closing bracket ends the bracket. -/
lemma closes_of_unquoted {word behind : List Char} (hbefore : ∀ c ∈ before, isBlank c = true)
    (hne : word ≠ []) (hword : ∀ c ∈ word, isBlank c = false ∧ isQuote c = false ∧ isSpecial c = false)
    (hbehind : ∀ c ∈ behind, isBlank c = true) : Closes (before ++ (word ++ behind)) := by
  refine closes_of_notMem ?_ ?_
  · obtain ⟨c, word, rfl⟩ := List.exists_cons_of_ne_nil hne
    obtain ⟨hblank, hquote, -⟩ := hword c List.mem_cons_self
    rw [hasOpenQuote_append hbefore, List.cons_append, hasOpenQuote_cons hblank, hquote, Bool.false_and]
  · rw [List.mem_append, List.mem_append, not_or, not_or]
    exact ⟨notMem_of_isBlank hbefore, fun hmem => absurd (hword _ hmem).2.2 (by decide),
      notMem_of_isBlank hbehind⟩

/-- An index closes at the first bracket behind it. -/
lemma closes_of_isDigitRun (h : isDigitRun digits = true) : Closes digits := by
  have hword := closes_of_unquoted (List.forall_mem_nil _) (isDigitRun_iff.1 h).1
    (index_chars (.inl rfl) h) (List.forall_mem_nil _)
  rwa [List.nil_append, List.append_nil] at hword

/-- Behind blanks and a quote the quote is open unless the same one ends the content. -/
lemma hasOpenQuote_quoted (hbefore : ∀ c ∈ before, isBlank c = true) (hq : isQuote q = true)
    (s : List Char) : hasOpenQuote (before ++ q :: s) = (s.getLast? != some q) := by
  rw [hasOpenQuote_append hbefore, hasOpenQuote_cons (isBlank_of_isQuote hq), hq, Bool.true_and]

/-- A closing bracket in the content of a bracket with a key in quotes stands in the key. -/
lemma exists_of_quoted_eq {front after : List Char} (hbefore : ∀ c ∈ before, isBlank c = true)
    (hq : isQuote q = true) (h : before ++ q :: (name ++ [q]) = front ++ ']' :: after) :
    ∃ u v, front = before ++ q :: u ∧ name = u ++ ']' :: v := by
  have hne : q ≠ ']' := by
    rintro rfl
    exact absurd hq (by decide)
  rcases List.append_eq_append_iff.1 h with ⟨front, rfl, hfront⟩ | ⟨blanks, rfl, hblanks⟩
  · cases front with
    | nil => exact absurd (List.cons.inj hfront).1 hne
    | cons d u =>
      obtain ⟨rfl, hu⟩ := List.cons.inj hfront
      rcases List.eq_nil_or_concat after with rfl | ⟨v, d, rfl⟩
      · have hlast : q = ']' := by simpa using congrArg List.getLast? hu
        exact absurd hlast hne
      · have hu : name ++ [q] = (u ++ ']' :: v) ++ [d] := by simpa using hu
        exact ⟨u, v, rfl, List.append_inj_left' hu rfl⟩
  · cases blanks with
    | nil => exact absurd (List.cons.inj hblanks).1.symm hne
    | cons d blanks =>
      obtain ⟨rfl, -⟩ := List.cons.inj hblanks
      exact absurd (by simp) (notMem_of_isBlank hbefore)

/-- What selects a segment ends where its bracket does. -/
lemma Selects.closes (h : Selects inner segment) : Closes inner := by
  cases h with
  | star hbefore hbehind => exact closes_of_unquoted hbefore (by simp) star_chars hbehind
  | index hbefore hsign hdigits _ hbehind =>
    have hne := (isDigitRun_iff.1 hdigits).1
    exact closes_of_unquoted hbefore (by simp [hne]) (index_chars hsign hdigits) hbehind
  | @key before name q hbefore hq hname =>
    refine ⟨by simp [hasOpenQuote_quoted hbefore hq], fun front after hsplit => ?_⟩
    -- A closing bracket inside is one of the key: it is no blank and no quote.
    obtain ⟨u, v, rfl, rfl⟩ := exists_of_quoted_eq hbefore hq hsplit
    rw [hasOpenQuote_quoted hbefore hq, bne_iff_ne]
    intro hlast
    obtain ⟨u, rfl⟩ := List.getLast?_eq_some_iff.1 hlast
    exact hname ⟨u, v, by simp⟩

/-- A name in quotes is read as its key. -/
lemma readSelector_key (hq : isQuote q = true) (name : List Char) :
    readSelector (q :: (name ++ [q])) = .ok (.key (String.ofList name)) := by
  have hstar : q :: (name ++ [q]) ≠ ['*'] := by simp
  have hword : readWord? (q :: (name ++ [q])) = none := by
    rcases isQuote_iff.1 hq with rfl | rfl <;> simp [readWord?, readNat?, isDigitRun, isAsciiDigit]
  have hunquote : ((unquote? '\'' (q :: (name ++ [q]))).orElse fun _ => unquote? '"' (q :: (name ++ [q]))) =
      some name := by
    have hname : unquote? q (q :: (name ++ [q])) = some name := unquote?_eq_some_iff.2 rfl
    rcases isQuote_iff.1 hq with rfl | rfl
    · rw [hname]
      rfl
    · rw [hname]
      rfl
  rw [readSelector, if_neg hstar, hword]
  dsimp only
  rw [hunquote]

/-- What selects a segment is read as this segment once it is trimmed. -/
lemma Selects.readSelector (h : Selects inner segment) : readSelector (trim inner) = .ok segment := by
  cases h with
  | star hbefore hbehind =>
    rw [trim_append hbefore hbehind, trim_of_forall fun c hc => (star_chars c hc).1]
    rfl
  | @index before sign digits behind hbefore hsign hdigits hlt hbehind =>
    have hchars := index_chars hsign hdigits
    have hstar : sign ++ digits ≠ ['*'] := by
      rcases hsign with rfl | rfl
      · rintro rfl
        cases hdigits
      · simp
    have hword : readWord? (sign ++ digits) = some (digitsValue digits) := by
      rw [readWord?, readNat?_eq_some_iff.2 ⟨sign, digits, hsign, hdigits, rfl, rfl⟩]
      simpa [Option.filter] using hlt
    rw [trim_append hbefore hbehind, trim_of_forall fun c hc => (hchars c hc).1, Path.readSelector,
      if_neg hstar, hword]
  | @key before name q hbefore hq hname =>
    have hbehind := trim_append hbefore (List.forall_mem_nil _) (q :: (name ++ [q]))
    rw [List.append_nil] at hbehind
    rw [hbehind, trim_quoted hq, readSelector_key hq]

/-- What selects a segment: a bracket ends behind it, and it is read as the segment. -/
theorem selects_iff : Selects inner segment ↔ Closes inner ∧ readSelector (trim inner) = .ok segment := by
  refine ⟨fun h => ⟨h.closes, h.readSelector⟩, fun ⟨hcloses, hread⟩ => ?_⟩
  obtain ⟨before, behind, hbefore, hbehind, hinner⟩ := exists_trim inner
  generalize trim inner = word at hinner hread
  subst hinner
  rw [readSelector] at hread
  -- The reader tries the star, an index and a key in quotes, in this order.
  split at hread
  · next hstar =>
    obtain rfl := Except.ok.inj hread
    rw [hstar]
    exact .star hbefore hbehind
  split at hread
  · next n hword =>
    obtain rfl := Except.ok.inj hread
    obtain ⟨hn, hlt⟩ := Option.filter_eq_some_iff.1 hword
    obtain ⟨sign, digits, hsign, hdigits, rfl, rfl⟩ := readNat?_eq_some_iff.1 hn
    exact .index hbefore hsign hdigits (of_decide_eq_true hlt) hbehind
  split at hread
  · next name hname =>
    obtain rfl := Except.ok.inj hread
    obtain ⟨q, hq, rfl⟩ : ∃ q, isQuote q = true ∧ word = q :: (name ++ [q]) := by
      cases hsingle : unquote? '\'' word with
      | some single =>
        rw [hsingle] at hname
        obtain rfl := Option.some.inj hname
        exact ⟨'\'', rfl, unquote?_eq_some_iff.1 hsingle⟩
      | none =>
        rw [hsingle] at hname
        exact ⟨'"', rfl, unquote?_eq_some_iff.1 hname⟩
    have hopen : ∀ s, hasOpenQuote (before ++ q :: s) = (s.getLast? != some q) :=
      hasOpenQuote_quoted hbefore hq
    have hclosed := hcloses.closed
    rw [List.cons_append, hopen, bne_eq_false_iff_eq] at hclosed
    -- The quote stands at the very end.
    obtain rfl : behind = [] := by
      rcases List.eq_nil_or_concat behind with rfl | ⟨blanks, c, rfl⟩
      · rfl
      · rw [List.concat_eq_append, ← List.append_assoc, List.getLast?_concat] at hclosed
        have hc : isBlank c = true := hbehind c (by simp)
        rw [Option.some.inj hclosed, isBlank_of_isQuote hq] at hc
        cases hc
    rw [List.append_nil] at hcloses ⊢
    refine .key hbefore hq ?_
    rintro ⟨u, v, rfl⟩
    have hinside := hcloses.inside (before ++ q :: (u ++ [q])) (v ++ [q]) (by simp)
    rw [hopen, List.getLast?_concat] at hinside
    simp at hinside
  · cases hread

/-! ### The scanner -/

namespace Scanner

/-- The scanner can take the next step of a text that has or has not begun. -/
def Ready (s : Scanner) : Bool → Prop
  | true => s.key ≠ [] ∨ s.afterBracket = true
  | false => s.key = [] ∧ s.afterBracket = false

/-- After its end no key is held. -/
lemma key_endKey (s : Scanner) : s.endKey.key = [] := by
  unfold endKey
  split
  · next h => simpa using h
  · rfl

/-- Where no key is held there is none to end. -/
lemma endKey_of_key_eq_nil (h : s.key = []) : s.endKey = s := by
  simp [endKey, h]

end Scanner

/-- A dot ends the key before it, and a step has to follow. -/
lemma scan_dot (h : s.Ready true) (hrest : rest ≠ []) :
    scan s ('.' :: rest) =
      scan ⟨s.position + 1, [], false, s.endKey.segments⟩ rest := by
  have hkey : (s.key.isEmpty && !s.afterBracket) = false := by
    rcases h with h | h <;> simp [h]
  rw [scan]
  simp [hkey, hrest, s.key_endKey]

/-- A bracket ends the key before it and adds the segment that its content selects. -/
lemma scan_bracket (s : Scanner) (htake : takeBracket [] chars = some (inner, rest))
    (hsegment : readSelector (trim inner) = .ok segment) :
    scan s ('[' :: chars) = scan ⟨s.endKey.position + byteLength inner + 2, [], true,
      segment :: s.endKey.segments⟩ rest := by
  rw [scan, if_neg (by decide), if_pos rfl]
  split
  · next h => simp [htake] at h
  · next inner' rest' h =>
    rw [htake] at h
    obtain ⟨rfl, rfl⟩ : inner = inner' ∧ rest = rest' := by simpa using h
    rw [hsegment]
    dsimp only
    rw [s.key_endKey]

/-- The characters of a plain key are put before what is read of it already. -/
lemma scan_plain (h : ∀ c ∈ name, isSpecial c = false) (hready : s.key ≠ [] ∨ s.afterBracket = false)
    (rest : List Char) :
    ∃ position, scan s (name ++ rest) =
      scan { s with position := position, key := name.reverse ++ s.key } rest := by
  induction name generalizing s with
  | nil => exact ⟨s.position, rfl⟩
  | cons c name ih =>
    obtain ⟨hc, hname⟩ := List.forall_mem_cons.1 h
    have hplain : c ≠ '.' ∧ c ≠ '[' ∧ c ≠ ']' := by simpa [isSpecial, and_assoc] using hc
    have hbehind : (s.afterBracket && s.key.isEmpty) = false := by
      rcases hready with h | h <;> simp [h]
    obtain ⟨position, hrest⟩ := ih (s := { s with position := s.position + c.utf8Size, key := c :: s.key })
      hname (.inl (List.cons_ne_nil _ _))
    refine ⟨position, ?_⟩
    rw [List.cons_append, scan, if_neg hplain.1, if_neg hplain.2.1, if_neg hplain.2.2, hbehind,
      if_neg Bool.false_ne_true, hrest]
    simp

/-- The scanner takes a text of the grammar and adds its segments. -/
theorem scan_of_spells (h : Spells begun text segments) (hready : s.Ready begun) :
    scan s text = .ok (s.endKey.segments.reverse ++ segments) := by
  induction h generalizing s with
  | nil begun => rw [scan, List.append_nil]
  | @key name rest segments hne hplain _ ih =>
    obtain ⟨hempty, hbehind⟩ := hready
    obtain ⟨position, hscan⟩ := scan_plain hplain (.inr hbehind) rest
    rw [hempty, List.append_nil] at hscan
    rw [hscan, ih (.inl (by simpa using hne)), Scanner.endKey_of_key_eq_nil hempty]
    simp [Scanner.endKey, hne]
  | @bracket begun inner rest segment segments hselects _ ih =>
    obtain ⟨hcloses, hread⟩ := selects_iff.1 hselects
    rw [scan_bracket s (takeBracket_of_closes hcloses rest) hread, ih (.inr rfl),
      Scanner.endKey_of_key_eq_nil rfl]
    simp
  | @dot text segments hne _ ih =>
    rw [scan_dot hready hne, ih ⟨rfl, rfl⟩, Scanner.endKey_of_key_eq_nil rfl]

/-- The key that the scanner holds is the first step of the text from its beginning on. -/
lemma exists_of_endKey {behind : List Segment} (hplain : ∀ c ∈ s.key, isSpecial c = false)
    (hkey : s.key ≠ [] → s.afterBracket = false) (hheld : s.key ≠ [] → Spells true text behind)
    (hempty : s.key = [] → Spells s.afterBracket text behind) :
    ∃ front, s.endKey.segments.reverse ++ behind = s.segments.reverse ++ front ∧
      Spells s.afterBracket (s.key.reverse ++ text) front := by
  by_cases hs : s.key = []
  · refine ⟨behind, by rw [Scanner.endKey_of_key_eq_nil hs], ?_⟩
    rw [hs]
    exact hempty hs
  · refine ⟨.key (String.ofList s.key.reverse) :: behind, by simp [Scanner.endKey, hs], ?_⟩
    rw [hkey hs]
    exact .key (by simpa using hs) (by simpa using hplain) (hheld hs)

/-- A text that the scanner takes is one of the grammar, together with the key before it that the scanner
holds. -/
theorem spells_of_scan (h : scan s text = .ok segments) (hplain : ∀ c ∈ s.key, isSpecial c = false)
    (hkey : s.key ≠ [] → s.afterBracket = false) :
    ∃ front, segments = s.segments.reverse ++ front ∧ Spells s.afterBracket (s.key.reverse ++ text) front := by
  -- By the scanner's own recursion; the key that it holds is spelled once a step behind it ends it.
  fun_induction scan s text generalizing segments with
  | case1 s =>
    obtain rfl := Except.ok.inj h
    simpa using exists_of_endKey hplain hkey (fun _ => .nil true) fun _ => .nil _
  | case4 s rest hstep hrest ih =>
    obtain ⟨behind, rfl, hbehind⟩ := ih h (by simp [s.key_endKey]) (by simp)
    have hdot : Spells true ('.' :: rest) behind := by
      refine .dot (by simpa using hrest) ?_
      simpa [s.key_endKey] using hbehind
    refine exists_of_endKey hplain hkey (fun _ => hdot) fun hempty => ?_
    have hafter : s.afterBracket = true := by simpa [hempty] using hstep
    rwa [hafter]
  | case7 s rest inner behind htake segment hread ended _ =>
    rename_i ih
    obtain ⟨front, rfl, hfront⟩ := ih h (by simp [ended, s.key_endKey]) (by simp [ended, s.key_endKey])
    obtain ⟨hcloses, rfl⟩ := closes_of_takeBracket htake
    have hbracket : ∀ begun, Spells begun ('[' :: (inner ++ ']' :: behind)) (segment :: front) := fun begun =>
      .bracket (selects_iff.2 ⟨hcloses, hread⟩) (by simpa [ended, s.key_endKey] using hfront)
    simpa using exists_of_endKey hplain hkey (fun _ => hbracket true) fun _ => hbracket _
  | case10 s c rest hdot hopening hclosing hstep ih =>
    have hc : isSpecial c = false := by simp [isSpecial, hdot, hopening, hclosing]
    have hafter : s.afterBracket = false := by
      cases hkeyed : s.key with
      | nil => simpa [hkeyed] using hstep
      | cons d key => exact hkey (by simp [hkeyed])
    obtain ⟨front, hsegments, hfront⟩ := ih h (List.forall_mem_cons.2 ⟨hc, hplain⟩) fun _ => hafter
    exact ⟨front, hsegments, by simpa using hfront⟩
  | _ => cases h

/-- The scanner reads the texts of the grammar. -/
theorem scan_eq_ok_iff : scan {} text = .ok segments ↔ Spells false text segments := by
  constructor
  · intro h
    obtain ⟨front, rfl, hfront⟩ := spells_of_scan h (by simp) (by simp)
    exact hfront
  · intro h
    exact scan_of_spells h ⟨rfl, rfl⟩

/-- A text is read as a path if, without the blanks around it, it spells the segments of the path. -/
theorem parse_eq_ok_iff {expression : String} {p : Path} :
    parse expression = .ok p ↔
      Spells false (trim expression.toList) p.segments ∧ p.text = String.ofList (trim expression.toList) := by
  rw [← scan_eq_ok_iff, parse]
  constructor
  · intro h
    split at h
    · next hscan =>
      obtain rfl := Except.ok.inj h
      exact ⟨hscan, rfl⟩
    · cases h
  · rintro ⟨hscan, htext⟩
    rw [hscan]
    dsimp only
    rw [← htext]

end EntityDump.Path
