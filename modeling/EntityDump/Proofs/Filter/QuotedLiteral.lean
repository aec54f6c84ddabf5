import EntityDump.Proofs.Filter.OperatorScan
import EntityDump.Proofs.Path.Grammar
/-!
# Conditions on quoted literals

What a path holds in brackets and what a literal holds in quotes does not decide which operator is read: behind
the text of a path (`Path.IsOperand`), an operator and a literal in quotes are read as they are written, whatever
the literal (`Condition.parse?_of_isOperand`).

The mask hides the brackets of such a path, as each of them ends for the mask where it ends for the reader of
paths (`Path.Selects.shows`). So of the path it shows no blank, no quote and no sign of an operator
(`Path.Spells.exists_shows`).
-/

namespace EntityDump

open Text

namespace Path

/-! ### Brackets of a text -/

/-- What a text holds outside its brackets and in each of them. -/
structure Bracketed where
  outside : List Char := []
  contents : List (List Char) := []

/-- Splits a text at its brackets, which end where they end for the reader of paths. While a bracket is open, its
content so far is given, its last character first. -/
def bracketed : Option (List Char) → List Char → Bracketed
  | _, [] => {}
  | none, c :: rest =>
    if c = '[' then bracketed (some []) rest
    else
      let parts := bracketed none rest
      { parts with outside := c :: parts.outside }
  | some reversed, c :: rest =>
    if c = ']' && !hasOpenQuote reversed.reverse then
      let parts := bracketed none rest
      { parts with contents := reversed.reverse :: parts.contents }
    else bracketed (some (c :: reversed)) rest

variable {inner name rest text : List Char} {segment : Segment} {segments : List Segment} {begun : Bool}

/-- A bracket that the scanner takes is one of the contents, and the text goes on outside behind it. -/
lemma bracketed_of_takeBracket {reversed s : List Char} (h : takeBracket reversed s = some (inner, rest)) :
    bracketed (some reversed) s =
      ⟨(bracketed none rest).outside, inner :: (bracketed none rest).contents⟩ := by
  induction s generalizing reversed with
  | nil => cases h
  | cons c s ih =>
    rw [takeBracket] at h
    rw [bracketed]
    split at h
    · next hc =>
      obtain ⟨rfl, rfl⟩ : reversed.reverse = inner ∧ s = rest := by simpa using h
      rw [if_pos hc]
    · next hc =>
      rw [if_neg hc, ih h]

/-- A bracket that closes is one of the contents. -/
lemma bracketed_bracket (h : Closes inner) (rest : List Char) :
    bracketed none ('[' :: (inner ++ ']' :: rest)) =
      ⟨(bracketed none rest).outside, inner :: (bracketed none rest).contents⟩ := by
  rw [bracketed, if_pos rfl, bracketed_of_takeBracket (takeBracket_of_closes h rest)]

/-- A name without brackets stands outside. -/
lemma bracketed_append (h : '[' ∉ name) (rest : List Char) :
    bracketed none (name ++ rest) =
      ⟨name ++ (bracketed none rest).outside, (bracketed none rest).contents⟩ := by
  induction name with
  | nil => rfl
  | cons c name ih =>
    obtain ⟨hc, hname⟩ := not_or.1 (mt List.mem_cons.2 h)
    rw [List.cons_append, bracketed, if_neg (Ne.symm hc), ih hname]
    rfl

/-- What stands outside brackets stands in the text. -/
lemma mem_of_mem_outside {content : Option (List Char)} {c : Char} (h : c ∈ (bracketed content text).outside) :
    c ∈ text := by
  fun_induction bracketed content text with
  | case1 => exact h
  | case2 rest ih => exact List.mem_cons_of_mem _ (ih h)
  | case3 c rest hopening parts ih =>
    rcases List.mem_cons.1 h with rfl | h
    · exact List.mem_cons_self
    · exact List.mem_cons_of_mem _ (ih h)
  | case4 c rest reversed hclosing parts ih => exact List.mem_cons_of_mem _ (ih h)
  | case5 c rest reversed hclosing ih => exact List.mem_cons_of_mem _ (ih h)

/-- The text of a path that can stand before any operator: it holds no blanks, no quotes and signs outside brackets,
and no key in quotes that holds its own quote. -/
structure IsOperand (text : List Char) : Prop where
  ne_nil : text ≠ []
  blank : ∀ c ∈ text, isBlank c = false
  outside : ∀ c ∈ (bracketed none text).outside, c ∉ ['\'', '"', '=', '<', '>']
  contents : ∀ inner ∈ (bracketed none text).contents, ∀ q ∈ ['\'', '"'], ∀ name ∈ unquote? q inner, q ∉ name

/-- Whether a text can be an operand can be computed. -/
lemma isOperand_iff (text : List Char) :
    IsOperand text ↔ text ≠ [] ∧ (text.all fun c => !isBlank c) = true ∧
      ((bracketed none text).outside.all fun c => !(['\'', '"', '=', '<', '>'].contains c)) = true ∧
      ((bracketed none text).contents.all fun inner => ['\'', '"'].all fun q =>
        (unquote? q inner).all fun name => !name.contains q) = true := by
  simp only [List.all_eq_true, Option.all_eq_true, Bool.not_eq_true', List.contains_eq_mem,
    decide_eq_false_iff_not]
  exact ⟨fun h => ⟨h.ne_nil, h.blank, h.outside, h.contents⟩, fun h => ⟨h.1, h.2.1, h.2.2.1, h.2.2.2⟩⟩

instance (text : List Char) : Decidable (IsOperand text) :=
  decidable_of_iff' _ (isOperand_iff text)

/-! ### What is shown of a path -/

open Mask (Shows shows_inside shows_outside)

lemma eq_nil_of_isBlank {before : List Char} (h : ∀ c ∈ before, isBlank c = true)
    (hblank : ∀ c ∈ before, isBlank c = false) : before = [] :=
  List.eq_nil_iff_forall_not_mem.2 fun c hc => Bool.noConfusion ((h c hc).symm.trans (hblank c hc))

/-- Within a bracket, characters that are neither brackets nor quotes change nothing. -/
lemma shows_unquoted (h : ∀ c ∈ inner, isBlank c = false ∧ isQuote c = false ∧ isSpecial c = false) :
    Shows ⟨1, none⟩ inner (List.replicate inner.length maskChar) ⟨1, none⟩ := by
  refine shows_inside Nat.one_pos fun c hc => ?_
  obtain ⟨-, hquote, hspecial⟩ := h c hc
  have hplain : c ≠ '.' ∧ c ≠ '[' ∧ c ≠ ']' := by simpa [isSpecial, and_assoc] using hspecial
  simp [Mask.next?, hquote, hplain]

/-- Within a bracket, quotes hide all but their own kind. -/
lemma shows_quoted {q : Char} (hq : isQuote q = true) (hname : q ∉ name) :
    Shows ⟨1, none⟩ (q :: (name ++ [q])) (List.replicate (q :: (name ++ [q])).length maskChar) ⟨1, none⟩ := by
  have hopening : Mask.next? ⟨1, none⟩ q = some ⟨1, some q⟩ := by
    rcases isQuote_iff.1 hq with rfl | rfl <;> rfl
  have hinside : Shows ⟨1, some q⟩ name (List.replicate name.length maskChar) ⟨1, some q⟩ := by
    refine shows_inside Nat.one_pos fun c hc => ?_
    have hne : c ≠ q := fun hcq => hname (hcq ▸ hc)
    simp [Mask.next?, hne]
  have hclosing : Mask.next? ⟨1, some q⟩ q = some ⟨1, none⟩ := by simp [Mask.next?]
  rw [List.length_cons, List.length_append, List.replicate_succ, List.replicate_add]
  exact .cons hopening (hinside.append (.cons hclosing (.nil _)))

/-- A bracket is hidden, and the mask is behind it as it was before. -/
lemma Selects.shows (h : Selects inner segment) (hblank : ∀ c ∈ inner, isBlank c = false)
    (hown : ∀ q ∈ ['\'', '"'], ∀ name ∈ unquote? q inner, q ∉ name) :
    Shows {} ('[' :: (inner ++ [']'])) (List.replicate ('[' :: (inner ++ [']'])).length maskChar) {} := by
  have hinner : Shows ⟨1, none⟩ inner (List.replicate inner.length maskChar) ⟨1, none⟩ := by
    cases h with
    | star hbefore hbehind =>
      simp only [List.forall_mem_append] at hblank
      obtain rfl := eq_nil_of_isBlank hbefore hblank.1
      obtain rfl := eq_nil_of_isBlank hbehind hblank.2.2
      exact shows_unquoted star_chars
    | index hbefore hsign hdigits _ hbehind =>
      rw [List.forall_mem_append, List.forall_mem_append] at hblank
      obtain rfl := eq_nil_of_isBlank hbefore hblank.1
      obtain rfl := eq_nil_of_isBlank hbehind hblank.2.2
      rw [List.nil_append, List.append_nil]
      exact shows_unquoted (index_chars hsign hdigits)
    | @key before name q hbefore hq hname =>
      rw [List.forall_mem_append] at hblank
      obtain rfl := eq_nil_of_isBlank hbefore hblank.1
      have hquote : q ∈ ['\'', '"'] := by simpa [isQuote] using hq
      exact shows_quoted hq (hown q hquote name (unquote?_eq_some_iff.2 rfl))
  rw [List.length_cons, List.length_append, List.replicate_succ, List.replicate_add]
  exact .cons rfl (hinner.append (.cons rfl (.nil _)))

/-- Of a path only what stands outside brackets is shown. -/
theorem Spells.exists_shows (h : Spells begun text segments) (hblank : ∀ c ∈ text, isBlank c = false)
    (hquote : ∀ c ∈ (bracketed none text).outside, isQuote c = false)
    (hown : ∀ inner ∈ (bracketed none text).contents, ∀ q ∈ ['\'', '"'], ∀ name ∈ unquote? q inner, q ∉ name) :
    ∃ out, Shows {} text out {} ∧ ∀ c ∈ out, c = maskChar ∨ c ∈ (bracketed none text).outside := by
  -- Step by step the mask is back at its start, with every bracket hidden as a whole.
  induction h with
  | nil => exact ⟨[], .nil _, by simp⟩
  | @key name rest segments _ hplain _ ih =>
    have hname : ∀ c ∈ name, c ≠ '.' ∧ c ≠ '[' ∧ c ≠ ']' := by
      simpa [isSpecial, and_assoc] using hplain
    have hparts := bracketed_append (fun hmem => (hname '[' hmem).2.1 rfl) rest
    rw [hparts] at hquote hown ⊢
    rw [List.forall_mem_append] at hblank hquote
    obtain ⟨out, hshows, hout⟩ := ih hblank.2 hquote.2 hown
    have hself : Shows {} name name {} :=
      shows_outside fun c hc => ⟨(hname c hc).2.1, (hname c hc).2.2, hquote.1 c hc⟩
    refine ⟨name ++ out, hself.append hshows, fun c hc => ?_⟩
    rcases List.mem_append.1 hc with hc | hc
    · exact .inr (List.mem_append_left _ hc)
    · exact (hout c hc).imp_right (List.mem_append_right name)
  | @bracket begun inner rest segment segments hselects _ ih =>
    rw [bracketed_bracket hselects.closes rest] at hquote hown ⊢
    have htext : '[' :: (inner ++ ']' :: rest) = ('[' :: (inner ++ [']'])) ++ rest := by simp
    rw [htext] at hblank ⊢
    rw [List.forall_mem_append] at hblank
    obtain ⟨hinner, hrest⟩ := List.forall_mem_cons.1 hown
    obtain ⟨out, hshows, hout⟩ := ih hblank.2 hquote hrest
    have hhidden := hselects.shows (fun c hc => hblank.1 c (by simp [hc])) hinner
    refine ⟨_, hhidden.append hshows, fun c hc => ?_⟩
    rcases List.mem_append.1 hc with hc | hc
    · exact .inl (List.eq_of_mem_replicate hc)
    · exact hout c hc
  | @dot text segments _ _ ih =>
    have hopening : '[' ∉ ['.'] := by decide
    have hparts := bracketed_append hopening text
    rw [List.singleton_append] at hparts
    rw [hparts] at hquote hown ⊢
    rw [List.singleton_append, List.forall_mem_cons] at hquote
    obtain ⟨out, hshows, hout⟩ := ih (List.forall_mem_cons.1 hblank).2 hquote.2 hown
    refine ⟨'.' :: out, .cons rfl hshows, fun c hc => ?_⟩
    rcases List.mem_cons.1 hc with rfl | hc
    · exact .inr List.mem_cons_self
    · exact (hout c hc).imp_right (List.mem_cons_of_mem _)

end Path

/-! ### Conditions -/

/-- An operator as it stands in a condition: between blanks, or at the end if it takes no literal. -/
def Operator.spaced (o : Operator) : List Char :=
  ' ' :: (o.symbol.toList ++ if o = .exist then [] else [' '])

/-- An operator between blanks comes first in itself. -/
lemma Operator.leads_spaced (o : Operator) : o.Leads o.spaced := by
  cases o <;> decide

/-- An operator between blanks is shown as it is. -/
lemma Operator.shows_spaced (o : Operator) : Mask.Shows {} o.spaced o.spaced {} := by
  have hplain : (o.spaced.all fun c => c != '[' && c != ']' && !Path.isQuote c) = true := by
    cases o <;> decide
  refine Mask.shows_outside fun c hc => ?_
  simpa [and_assoc] using List.all_eq_true.1 hplain c hc

/-- Nothing is shown of a literal in quotes, as it begins with a quote. -/
lemma operatorScan_quoted {o : Operator} {q : Char} (ho : o ≠ .exist) (hq : Path.isQuote q = true)
    (s : List Char) : operatorScan (' ' :: (o.symbol.toList ++ ' ' :: q :: s)) = o.spaced := by
  have hspaced : ' ' :: (o.symbol.toList ++ ' ' :: q :: s) = o.spaced ++ q :: s := by
    simp [Operator.spaced, ho]
  have hhidden : Mask.apply {} (q :: s) = [] := by
    rcases Path.isQuote_iff.1 hq with rfl | rfl <;> rfl
  rw [hspaced, operatorScan, o.shows_spaced.apply_append, hhidden, List.append_nil]

/-- A text in quotes of either kind is a literal for the text. -/
lemma readLiteral_quoted {q : Char} (hq : Path.isQuote q = true) (s : List Char) :
    readLiteral (q :: (s ++ [q])) = .string (String.ofList s) := by
  have hunquote : ((Path.unquote? '"' (q :: (s ++ [q]))).orElse fun _ =>
      Path.unquote? '\'' (q :: (s ++ [q]))) = some s := by
    have hself : Path.unquote? q (q :: (s ++ [q])) = some s := Path.unquote?_eq_some_iff.2 rfl
    rcases Path.isQuote_iff.1 hq with rfl | rfl <;> rw [hself] <;> rfl
  unfold readLiteral
  dsimp only
  rw [Path.trim_quoted hq, hunquote]

namespace Condition

variable {p : String} {path : Path}

/-- What is shown of an operand holds neither blanks nor signs, and what comes behind it is shown as alone. -/
lemma exists_operatorScan (hpath : Path.parse p = .ok path) (hp : Path.IsOperand p.toList) :
    ∃ front : List Char, front.length = p.toList.length ∧ (∀ c ∈ front, isBlank c = false ∧ c ∉ signs) ∧
      ∀ rest, operatorScan (p.toList ++ rest) = front ++ operatorScan rest := by
  obtain ⟨hspells, -⟩ := Path.parse_eq_ok_iff.1 hpath
  rw [trim_of_forall hp.blank] at hspells
  have hquote : ∀ c ∈ (Path.bracketed none p.toList).outside, Path.isQuote c = false := by
    intro c hc
    have hc := hp.outside c hc
    simp only [List.mem_cons, not_or] at hc
    simp [Path.isQuote, hc]
  obtain ⟨front, hshows, hfront⟩ := hspells.exists_shows hp.blank hquote hp.contents
  refine ⟨front, hshows.length_eq, fun c hc => ?_, hshows.apply_append⟩
  rcases hfront c hc with rfl | hc
  · exact ⟨by decide, by decide⟩
  · refine ⟨hp.blank c (Path.mem_of_mem_outside hc), fun hsign => hp.outside c hc ?_⟩
    exact List.mem_cons_of_mem _ (List.mem_cons_of_mem _ hsign)

/-- Behind an operand the operator is read that is shown there. -/
lemma parseChars?_of_isOperand (hpath : Path.parse p = .ok path) (hp : Path.IsOperand p.toList)
    {o : Operator} {behind : List Char}
    (hscan : operatorScan (' ' :: (o.symbol.toList ++ behind)) = o.spaced)
    (hlast : ∀ c ∈ (o.symbol.toList ++ behind).getLast?, isBlank c = false)
    (hbehind : (trim behind).isEmpty = (o == .exist)) :
    parseChars? false (p.toList ++ ' ' :: (o.symbol.toList ++ behind)) =
      some ⟨.left, path, o, if o == .exist then .null else readLiteral (trim behind)⟩ := by
  obtain ⟨front, hlength, hfront, happend⟩ := exists_operatorScan hpath hp
  have hshown : operatorScan (p.toList ++ ' ' :: (o.symbol.toList ++ behind)) = front ++ o.spaced := by
    rw [happend, hscan]
  have hparse : Path.parse (String.ofList p.toList) = .ok path := by rwa [String.ofList_toList]
  exact parseChars?_of_leads hshown hlength hfront o.leads_spaced hp.ne_nil hp.blank hlast hbehind rfl hparse

/-- Behind the text of a path any operator is read that stands there, and a text in quotes is read as it is. -/
theorem parse?_of_isOperand (hpath : Path.parse p = .ok path) (hp : Path.IsOperand p.toList) :
    (∀ o, o ≠ .exist → ∀ q, Path.isQuote q = true → ∀ s : String,
      parse? false (p ++ " " ++ o.symbol ++ " " ++ String.ofList (q :: (s.toList ++ [q]))) =
        some ⟨.left, path, o, .string s⟩) ∧
    parse? false (p ++ " exists") = some ⟨.left, path, .exist, .null⟩ := by
  constructor
  · intro o ho q hq s
    have htext : (p ++ " " ++ o.symbol ++ " " ++ String.ofList (q :: (s.toList ++ [q]))).toList =
        p.toList ++ ' ' :: (o.symbol.toList ++ ' ' :: (q :: (s.toList ++ [q]))) := by simp
    have hnot : (o == .exist) = false := beq_eq_false_iff_ne.2 ho
    have htrim : trim (' ' :: (q :: (s.toList ++ [q]))) = q :: (s.toList ++ [q]) := by
      rw [trim_cons_of_isBlank (by decide), Path.trim_quoted hq]
    have hlast : ∀ c ∈ (o.symbol.toList ++ ' ' :: (q :: (s.toList ++ [q]))).getLast?, isBlank c = false := by
      have hend : o.symbol.toList ++ ' ' :: (q :: (s.toList ++ [q])) =
          (o.symbol.toList ++ ' ' :: (q :: s.toList)) ++ [q] := by simp
      rw [hend, List.getLast?_concat]
      simpa using Path.isBlank_of_isQuote hq
    have hbehind : (trim (' ' :: (q :: (s.toList ++ [q])))).isEmpty = (o == .exist) := by
      rw [htrim, hnot]
      rfl
    have hread := parseChars?_of_isOperand hpath hp (operatorScan_quoted ho hq _) hlast hbehind
    rw [parse?, htext, hread, htrim, readLiteral_quoted hq, String.ofList_toList, hnot]
    rfl
  · have htext : (p ++ " exists").toList = p.toList ++ ' ' :: (Operator.exist.symbol.toList ++ []) := by
      simp [Operator.symbol]
    have hlast : ∀ c ∈ (Operator.exist.symbol.toList ++ []).getLast?, isBlank c = false := by
      intro c hc
      obtain rfl : 's' = c := Option.some.inj hc
      decide
    have hscan : operatorScan (' ' :: (Operator.exist.symbol.toList ++ [])) = Operator.exist.spaced :=
      Operator.exist.shows_spaced.apply_append []
    rw [parse?, htext, parseChars?_of_isOperand hpath hp hscan hlast rfl]
    rfl

/-- A key with an operator, a bracket and the other quote in it, and a literal with operators and both quotes. -/
theorem parse?_of_isOperand_of_signs :
    ∃ path, Path.parse "a!['b]>=\"'][*]" = .ok path ∧
      path.segments = [.key "a!", .key "b]>=\"", .wildcard] ∧
      parse? false "a!['b]>=\"'][*] != \"it's \" < 1 exists\"" =
        some ⟨.left, path, .notEqual, .string "it's \" < 1 exists"⟩ ∧
      parse? false "a!['b]>=\"'][*] exists" = some ⟨.left, path, .exist, .null⟩ := by
  have hread : (Path.parse "a!['b]>=\"'][*]").toOption.map Path.segments =
      some [.key "a!", .key "b]>=\"", .wildcard] := by decide +kernel
  cases hpath : Path.parse "a!['b]>=\"'][*]" with
  | error e =>
    rw [hpath] at hread
    cases hread
  | ok path =>
    rw [hpath] at hread
    have hp : Path.IsOperand "a!['b]>=\"'][*]".toList := by decide +kernel
    obtain ⟨hquoted, hexists⟩ := parse?_of_isOperand hpath hp
    exact ⟨path, rfl, Option.some.inj hread, hquoted .notEqual (by decide) '"' rfl "it's \" < 1 exists", hexists⟩

end Condition

end EntityDump
