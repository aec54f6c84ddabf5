import EntityDump.Proofs.Filter.Literal
import EntityDump.Proofs.Filter.NumberCondition
/-!
# Conditions that are written out

A condition that was read is written as its path, its operator and its literal between single blanks, and reading
that text gives the condition again (`Condition.parse?_text`). The path's text may hold operators itself: an operator
that is looked for earlier was found in it, if at all, at its beginning, where nothing stands before it, and it is
found there again (`Condition.ReadFrom`). What the text shows of its path does not depend on what follows, as an
operator stands outside brackets and so behind closed ones (`Mask.exists_shows_of_shown`).
-/

namespace EntityDump

open Text

/-! ### Operators in front of a blank and behind it -/

/-- Behind a character that is not in it, a word is found where it is found alone, if it does not stand before. -/
lemma Text.find?_append_cons_of_none {word front : List Char} {c : Char} (hnone : find? word front = none)
    (hc : c ∉ word) (tail : List Char) :
    find? word (front ++ c :: tail) = (find? word (c :: tail)).map (· + front.length) := by
  induction front with
  | nil => simp
  | cons d front ih =>
    have habsent : ¬ word <:+: d :: front := find?_eq_none_iff.1 hnone
    have hhere : ¬ word <+: d :: (front ++ c :: tail) := fun h =>
      habsent (isPrefix_of_isPrefix_append_cons (a := d :: front) hc h).isInfix
    have hrest : find? word front = none := find?_eq_none_iff.2 fun h => habsent (List.infix_cons h)
    rw [List.cons_append, find?_cons_of_not_isPrefix hhere, ih hrest, Option.map_map]
    rfl

namespace Operator

variable {o other : Operator} {s front : List Char} {i : Nat}

/-- An operator is found within the text that is scanned for it, before its end. -/
lemma add_length_le_of_find? (h : o.find? (operatorScan s) = some i) : i + o.symbol.toList.length ≤ s.length := by
  have hprefix := (isPrefix_of_find? h).length_le
  have hscan : (operatorScan s).length ≤ s.length := Mask.length_apply_le {} s
  have hpos : 0 < o.symbol.toList.length := List.length_pos_of_ne_nil symbol_ne_nil
  rw [List.length_drop] at hprefix
  omega

/-- The operator is found at a place in a text, whatever comes behind the text. -/
structure InFront (o : Operator) (front : List Char) (i : Nat) : Prop where
  not_isWord : o.isWord = false
  within : i + o.symbol.toList.length ≤ front.length
  find?_append : ∀ rest, o.find? (front ++ rest) = some i

/-- Behind a text without blanks an operator stands where it stands in the rest, if it is not found in the text. -/
lemma find?_append_or (o : Operator) (hfront : ∀ c ∈ front, isBlank c = false) :
    (∃ i, o.InFront front i) ∨
      ∀ tail, o.find? (front ++ ' ' :: tail) = (o.find? (' ' :: tail)).map (· + front.length) := by
  cases hword : o.isWord with
  | true =>
    right
    intro tail
    rw [find?, find?, hword, if_pos rfl, if_pos rfl, findWord?_append hfront rfl, findWord?_add]
  | false =>
    have hfind : ∀ s, o.find? s = Text.find? o.symbol.toList s := by
      intro s
      rw [find?, hword, if_neg Bool.false_ne_true]
    cases hfound : Text.find? o.symbol.toList front with
    | some i =>
      obtain ⟨before, behind, hsplit, hbefore⟩ := exists_of_find? hfound
      refine .inl ⟨i, hword, ?_, fun rest => ?_⟩
      · rw [hsplit, List.length_append, List.length_append, hbefore]
        omega
      · rw [hfind, find?_append_of_some hfound]
    | none =>
      right
      intro tail
      rw [hfind, hfind, find?_append_cons_of_none hfound not_mem_symbol]

/-- What comes behind an operator in the text of a condition: nothing, or a blank and the literal. -/
def behind (o : Operator) (literal : List Char) : List Char :=
  if o = .exist then [] else ' ' :: literal

/-- An operator is found right behind the blank before it, whatever its literal. -/
lemma find?_behind (o : Operator) (literal : List Char) :
    o.find? (' ' :: (o.symbol.toList ++ o.behind literal)) = some 1 := by
  cases o <;> rfl

/-- A blank, an operator and the blank behind it are shown as they are. -/
lemma operatorScan_behind (o : Operator) (literal : List Char) :
    operatorScan (' ' :: (o.symbol.toList ++ o.behind literal)) =
      ' ' :: (o.symbol.toList ++ o.behind (operatorScan literal)) := by
  by_cases ho : o = .exist
  · subst ho
    rfl
  · have hspaced := o.shows_spaced.apply_append literal
    simpa [spaced, behind, operatorScan, ho] using hspaced

/-- An operator that is looked for earlier is found behind one that stands between blanks. -/
lemma two_le_of_mem_find?_behind {before after : List Operator} (hall : all = before ++ o :: after)
    (hother : other ∈ before) (literal : List Char) :
    ∀ i ∈ other.find? (' ' :: (o.symbol.toList ++ o.behind literal)), 2 ≤ i := by
  refine two_le_of_mem_find? fun hprefix => ?_
  have hpairwise := pairwise_all
  rw [hall, List.pairwise_append] at hpairwise
  refine hpairwise.2.2 other hother o List.mem_cons_self ?_
  unfold behind at hprefix
  split at hprefix
  · rwa [List.append_nil] at hprefix
  · exact isPrefix_of_isPrefix_append_cons not_mem_symbol hprefix

end Operator

namespace Condition

variable {c : Condition} {s name literal front : List Char} {o : Operator} {text : String}

/-! ### How a condition is read -/

/-- In a text an operator stands with a name before it, and with a literal behind it exactly if it takes one. -/
structure Splits (o : Operator) (s name literal : List Char) : Prop where
  exists_find? : ∃ i, o.find? (operatorScan s) = some i ∧ trim (s.take i) = name ∧
    trim (s.drop (i + o.symbol.toList.length)) = literal
  ne_nil : name ≠ []
  blank : ∀ c ∈ name, isBlank c = false
  literal : literal.isEmpty = (o == .exist)

/-- A text that an operator splits is read if its path is. -/
lemma Splits.parseAround?_eq (h : Splits o s name literal) : parseAround? false s o =
    some (match Path.parse (String.ofList name) with
      | .ok path => some ⟨.left, path, o, if o == .exist then .null else readLiteral literal⟩
      | .error _ => none) := by
  obtain ⟨i, hfound, hname, hliteral⟩ := h.exists_find?
  have hblank : (name.isEmpty || name.any isBlank) = false := by
    rw [Bool.or_eq_false_iff, List.isEmpty_eq_false_iff, List.any_eq_false]
    exact ⟨h.ne_nil, fun c hc => by simp [h.blank c hc]⟩
  rw [parseAround?, Operator.split?, hfound, Option.map_some]
  dsimp only
  rw [hname, hliteral, hblank, h.literal]
  simp only [bne_self_eq_false, Bool.false_eq_true, if_false]
  cases Path.parse (String.ofList name) <;> rfl

/-- An operator around which a condition can be read splits its text. -/
lemma exists_splits (h : parseAround? false s o ≠ none) : ∃ name literal, Splits o s name literal := by
  cases hfound : o.find? (operatorScan s) with
  | none =>
    rw [parseAround?, Operator.split?, hfound] at h
    exact absurd rfl h
  | some i =>
    rw [parseAround?, Operator.split?, hfound, Option.map_some] at h
    dsimp only at h
    split at h
    · exact absurd rfl h
    · next hname =>
      split at h
      · exact absurd rfl h
      · next hliteral =>
        rw [Bool.or_eq_true, not_or, List.isEmpty_iff, List.any_eq_true] at hname
        refine ⟨_, _, ⟨i, hfound, rfl, rfl⟩, hname.1, fun c hc => ?_, ?_⟩
        · exact Bool.eq_false_iff.2 fun hblank => hname.2 ⟨c, hc, hblank⟩
        · rw [bne_iff_ne, ne_eq, not_not] at hliteral
          exact hliteral.symm

/-- What remains of reading a condition, where `front` is what the text of its path shows. Its operator does not stand
in the front, and those that are looked for earlier at most at the beginning. -/
structure ReadFrom (c : Condition) (front : List Char) : Prop where
  side : c.side = .left
  ne_nil : c.path.text.toList ≠ []
  blank : ∀ d ∈ c.path.text.toList, isBlank d = false
  path : Path.parse c.path.text = .ok c.path
  shows : Mask.Shows {} c.path.text.toList front {}
  own : ∀ i, ¬ c.operator.InFront front i
  others : ∃ before after, Operator.all = before ++ c.operator :: after ∧
    ∀ other ∈ before, ∀ i, other.InFront front i → i = 0
  literal : ∃ s, c.literal = if c.operator == .exist then .null else readLiteral s

/-- What comes behind a place in a trimmed text is not blank. -/
lemma trim_drop_ne_nil (htrim : trim s = s) {n : Nat} (hn : n < s.length) : trim (s.drop n) ≠ [] := by
  intro hnil
  have hblank := (trim_eq_nil_iff _).1 hnil
  have hlast := isBlank_last_trim s
  rw [htrim] at hlast
  have hne : s ≠ [] := List.ne_nil_of_length_pos (Nat.zero_lt_of_lt hn)
  obtain ⟨d, hd⟩ := Option.isSome_iff_exists.1 (List.getLast?_isSome.2 hne)
  have hmem : d ∈ (s.drop n).getLast? := by
    rw [List.getLast?_drop, if_neg (Nat.not_le.2 hn), hd]
    rfl
  have hd' := hblank d (List.mem_of_getLast? hmem)
  rw [hlast d hd] at hd'
  contradiction

/-- What an operator is found to split off in front of a text, and the blanks before the operator. -/
lemma Splits.exists_blanks (h : Splits o s name literal) (htrim : trim s = s) :
    ∃ blanks rest, (∀ c ∈ blanks, isBlank c = true) ∧ s = name ++ (blanks ++ rest) ∧
      o.find? (operatorScan s) = some (name.length + blanks.length) := by
  obtain ⟨i, hfound, hname, -⟩ := h.exists_find?
  have hi : i ≤ s.length := Nat.le_of_add_right_le (Operator.add_length_le_of_find? hfound)
  have hhead : ∀ c ∈ (s.take i).head?, isBlank c = false := by
    intro c hc
    rw [List.head?_take] at hc
    split at hc
    · cases hc
    · exact (trim_eq_self_iff.1 htrim).1 c hc
  obtain ⟨blanks, hblanks, hsplit⟩ := exists_trim_of_head? hhead
  rw [hname] at hsplit
  have hlength := congrArg List.length hsplit
  rw [List.length_take, Nat.min_eq_left hi, List.length_append] at hlength
  refine ⟨blanks, s.drop i, hblanks, ?_, hlength ▸ hfound⟩
  rw [← List.append_assoc, ← hsplit, List.take_append_drop]

/-- The brackets of the name in front of an operator are closed. -/
lemma Splits.exists_shows (h : Splits o s name literal) (htrim : trim s = s) :
    ∃ front, Mask.Shows {} name front {} := by
  obtain ⟨blanks, rest, hblanks, rfl, hfound⟩ := h.exists_blanks htrim
  obtain ⟨behind, hbehind⟩ := Operator.isPrefix_of_find? hfound
  obtain ⟨d, symbol, hsymbol, hd⟩ : ∃ d symbol, o.symbol.toList = d :: symbol ∧ d ≠ maskChar := by
    cases o <;> exact ⟨_, _, rfl, by decide⟩
  have hshown : d ∈ ((operatorScan (name ++ (blanks ++ rest))).drop (name.length + blanks.length)).head? := by
    rw [← hbehind, hsymbol]
    rfl
  exact Mask.exists_shows_of_shown hblanks hshown hd

/-- The operator around which a text is split does not stand in what the name shows. -/
lemma Splits.not_inFront (h : Splits o s name literal) (htrim : trim s = s) (hshows : Mask.Shows {} name front {})
    (i : Nat) : ¬ o.InFront front i := by
  intro hfront
  obtain ⟨blanks, rest, -, rfl, hfound⟩ := h.exists_blanks htrim
  rw [operatorScan, hshows.apply_append, hfront.find?_append] at hfound
  have hwithin := hfront.within
  have hpos : 0 < o.symbol.toList.length := List.length_pos_of_ne_nil Operator.symbol_ne_nil
  have hi := Option.some.inj hfound
  rw [hshows.length_eq] at hwithin
  omega

/-- An operator that splits nothing off stands in what the name shows at the beginning at most. -/
lemma Splits.eq_zero_of_inFront (h : Splits o s name literal) (htrim : trim s = s)
    (hshows : Mask.Shows {} name front {}) {other : Operator} (hnone : parseAround? false s other = none) {i : Nat}
    (hfront : other.InFront front i) : i = 0 := by
  obtain ⟨blanks, rest, -, hsplit, hfound⟩ := h.exists_blanks htrim
  have hwithin := hfront.within
  rw [hshows.length_eq] at hwithin
  by_contra hi
  -- Found further on, the other operator would have split the text itself.
  have htake : s.take i = name.take i := by
    rw [hsplit, List.take_append_of_le_length (by omega)]
  have hplain : ∀ c ∈ s.take i, isBlank c = false := by
    intro c hc
    rw [htake] at hc
    exact h.blank c (List.mem_of_mem_take hc)
  have hlong : i + other.symbol.toList.length < s.length := by
    have hend := Operator.add_length_le_of_find? hfound
    have hpos : 0 < o.symbol.toList.length := List.length_pos_of_ne_nil Operator.symbol_ne_nil
    omega
  have hother : Splits other s (trim (s.take i)) (trim (s.drop (i + other.symbol.toList.length))) := by
    refine ⟨⟨i, ?_, rfl, rfl⟩, ?_, ?_, ?_⟩
    · rw [hsplit, operatorScan, hshows.apply_append, hfront.find?_append]
    · rw [trim_of_forall hplain, htake]
      simp [List.take_eq_nil_iff, hi, h.ne_nil]
    · rwa [trim_of_forall hplain]
    · have hword : other ≠ .exist := by
        rintro rfl
        cases hfront.not_isWord
      rw [beq_eq_false_iff_ne.2 hword, List.isEmpty_eq_false_iff]
      exact trim_drop_ne_nil htrim hlong
  rw [hother.parseAround?_eq] at hnone
  cases hnone

/-- A condition that was read is read from what its text shows of the path. -/
lemma exists_front (h : parse? false text = some c) : ∃ front, c.ReadFrom front := by
  rw [parse?, parseChars?, Option.join_eq_some_iff] at h
  have htrim := trim_trim text.toList
  -- The text is trimmed before it is read, and only once.
  generalize trim text.toList = s at h htrim
  obtain ⟨before, o, after, hall, hfound, hnone⟩ := List.findSome?_eq_some_iff.1 h
  have hread : parseAround? false s o ≠ none := by
    rw [hfound]
    exact Option.some_ne_none _
  obtain ⟨name, literal, hsplits⟩ := exists_splits hread
  rw [hsplits.parseAround?_eq, Option.some.injEq] at hfound
  cases hpath : Path.parse (String.ofList name) with
  | error e =>
    rw [hpath] at hfound
    cases hfound
  | ok path =>
    rw [hpath] at hfound
    obtain rfl := Option.some.inj hfound
    obtain ⟨front, hshows⟩ := hsplits.exists_shows htrim
    have htext : path.text = String.ofList name := by
      rw [(Path.parse_eq_ok_iff.1 hpath).2, String.toList_ofList, trim_of_forall hsplits.blank]
    have hname : path.text.toList = name := by
      rw [htext, String.toList_ofList]
    refine ⟨front, ⟨rfl, ?_, ?_, ?_, ?_, ?_, ?_, ⟨literal, rfl⟩⟩⟩
    · exact hname ▸ hsplits.ne_nil
    · exact hname ▸ hsplits.blank
    · exact htext ▸ hpath
    · exact hname ▸ hshows
    · exact hsplits.not_inFront htrim hshows
    · refine ⟨before, after, hall, fun other hother i hi => ?_⟩
      exact hsplits.eq_zero_of_inFront htrim hshows (hnone other hother) hi

/-! ### Reading what was written out -/

/-- The text of a literal is read as the literal, and no blanks stand at its ends. -/
structure ReadsBack (v : Json) : Prop where
  ne_nil : v.compact.toList ≠ []
  trim_eq : trim v.compact.toList = v.compact.toList
  readLiteral_eq : readLiteral v.compact.toList = v

/-- What comes behind an operator ends with no blank, and is blank only if there is no literal. -/
lemma ReadsBack.behind {v : Json} (h : ReadsBack v) (o : Operator) :
    (∀ d ∈ (o.symbol.toList ++ o.behind v.compact.toList).getLast?, isBlank d = false) ∧
      (trim (o.behind v.compact.toList)).isEmpty = (o == .exist) ∧
      (o ≠ .exist → readLiteral (trim (o.behind v.compact.toList)) = v) := by
  by_cases ho : o = .exist
  · subst ho
    refine ⟨fun d hd => ?_, rfl, fun hne => absurd rfl hne⟩
    obtain rfl : 's' = d := Option.some.inj hd
    decide
  · have hbehind : o.behind v.compact.toList = ' ' :: v.compact.toList := if_neg ho
    have htrim : trim (o.behind v.compact.toList) = v.compact.toList := by
      rw [hbehind, trim_cons_of_isBlank (by decide), h.trim_eq]
    refine ⟨fun d hd => ?_, ?_, fun _ => ?_⟩
    · rw [hbehind, List.getLast?_append_of_ne_nil _ (List.cons_ne_nil _ _),
        List.getLast?_cons_of_ne_nil h.ne_nil] at hd
      exact (trim_eq_self_iff.1 h.trim_eq).2 d hd
    · rw [htrim, beq_eq_false_iff_ne.2 ho, List.isEmpty_eq_false_iff]
      exact h.ne_nil
    · rw [htrim, h.readLiteral_eq]

/-- A condition is written as its path, its operator and its literal between single blanks. -/
lemma toList_text (hside : c.side = .left) :
    c.text.toList =
      c.path.text.toList ++ ' ' :: (c.operator.symbol.toList ++ c.operator.behind c.literal.compact.toList) := by
  obtain ⟨side, path, o, literal⟩ := c
  obtain rfl : side = .left := hside
  unfold Condition.text Operator.behind
  dsimp only
  split
  · next ho => simp [ho, Operator.symbol]
  · simp

namespace ReadFrom

/-- What is shown of a path has no blank. -/
lemma isBlank_front (h : c.ReadFrom front) : ∀ d ∈ front, isBlank d = false := by
  intro d hd
  rcases h.shows.mem d hd with rfl | hd
  · decide
  · exact h.blank d hd

/-- In the text of the condition its operator is found behind the path. -/
lemma find?_own (h : c.ReadFrom front) (shown : List Char) :
    c.operator.find? (front ++ ' ' :: (c.operator.symbol.toList ++ c.operator.behind shown)) =
      some (c.path.text.toList.length + 1) := by
  rcases c.operator.find?_append_or h.isBlank_front with ⟨i, hi⟩ | hbehind
  · exact absurd hi (h.own i)
  · rw [hbehind, Operator.find?_behind, Option.map_some, h.shows.length_eq, Nat.add_comm]

/-- The operators that are looked for earlier are found at the beginning or behind the one of the condition. -/
lemma find?_others (h : c.ReadFrom front) (shown : List Char) :
    ∃ before after, Operator.all = before ++ c.operator :: after ∧ ∀ other ∈ before,
      ∀ i ∈ other.find? (front ++ ' ' :: (c.operator.symbol.toList ++ c.operator.behind shown)),
        i = 0 ∨ c.path.text.toList.length + 2 ≤ i := by
  obtain ⟨before, after, hall, hothers⟩ := h.others
  refine ⟨before, after, hall, ?_⟩
  intro other hother i hi
  rcases other.find?_append_or h.isBlank_front with ⟨j, hj⟩ | hbehind
  · rw [hj.find?_append] at hi
    exact .inl (Option.some.inj hi ▸ hothers other hother j hj)
  · rw [hbehind] at hi
    obtain ⟨j, hj, rfl⟩ := Option.map_eq_some_iff.1 hi
    have hlater := Operator.two_le_of_mem_find?_behind hall hother _ j hj
    have hlength := h.shows.length_eq
    omega

/-- A condition that was read is read again from its text if its literal is. -/
lemma parse?_text_of_readsBack (h : c.ReadFrom front) (hliteral : ReadsBack c.literal) :
    parse? false c.text = some c := by
  have hscan : operatorScan (c.path.text.toList ++
      ' ' :: (c.operator.symbol.toList ++ c.operator.behind c.literal.compact.toList)) =
        front ++ ' ' :: (c.operator.symbol.toList ++ c.operator.behind (operatorScan c.literal.compact.toList)) := by
    rw [operatorScan, h.shows.apply_append, ← operatorScan, Operator.operatorScan_behind]
  have hpath : Path.parse (String.ofList c.path.text.toList) = .ok c.path := by
    rw [String.ofList_toList]
    exact h.path
  obtain ⟨hlast, htrim, hread⟩ := hliteral.behind c.operator
  have hvalue : (if c.operator == .exist then Json.null
      else readLiteral (trim (c.operator.behind c.literal.compact.toList))) = c.literal := by
    obtain ⟨s, hs⟩ := h.literal
    split
    · next ho => rw [hs, if_pos ho]
    · next ho => exact hread (by simpa using ho)
  have hparse : parseChars? false _ = some ⟨.left, c.path, c.operator, _⟩ :=
    parseChars?_of_find? hscan (h.find?_own _) (h.find?_others _) h.ne_nil h.blank hlast htrim rfl hpath
  rw [hvalue] at hparse
  rw [parse?, toList_text h.side, hparse]
  obtain ⟨side, path, o, literal⟩ := c
  obtain rfl : side = .left := h.side
  rfl

end ReadFrom

/-! ### Literals that are read back -/

/-- The literal is null, a truth value, a whole number, or a string of which no character is escaped. -/
def IsPlain : Json → Prop
  | .null => True
  | .bool _ => True
  | .number n => n.isInt = true
  | .string s => ∀ d ∈ s.toList, d ≠ '"' ∧ d ≠ '\\' ∧ 0x20 ≤ d.toNat
  | _ => False

/-- A character that is no quote, no backslash and no control character is written as itself. -/
lemma escaped_eq_self {d : Char} (hquote : d ≠ '"') (hslash : d ≠ '\\') (hcontrol : 0x20 ≤ d.toNat) :
    Json.escaped d = [d] := by
  have hne : ∀ e : Char, e.toNat < 0x20 → d ≠ e := by
    rintro e he rfl
    omega
  unfold Json.escaped
  rw [if_neg hquote, if_neg hslash, if_neg (by omega), if_neg (by omega), if_neg (hne '\n' (by decide)),
    if_neg (hne '\r' (by decide)), if_neg (hne '\t' (by decide)), if_neg (by omega)]

/-- A plain string reads back from between its quotes. -/
lemma readsBack_string {s : String} (h : IsPlain (.string s)) : ReadsBack (.string s) := by
  have hescaped : s.toList.flatMap Json.escaped = s.toList := by
    have hself : s.toList.flatMap Json.escaped = s.toList.flatMap fun d => [d] :=
      List.flatMap_congr fun d hd => escaped_eq_self (h d hd).1 (h d hd).2.1 (h d hd).2.2
    rw [hself, List.flatMap_singleton']
  have htext : (Json.string s).compact.toList = '"' :: (s.toList ++ ['"']) := by
    rw [Json.compact, Json.quoted, String.toList_ofList, hescaped, List.cons_append]
  refine ⟨?_, ?_, ?_⟩
  · rw [htext]
    exact List.cons_ne_nil _ _
  · rw [htext, Path.trim_quoted rfl]
  · rw [htext, readLiteral_quoted rfl, String.ofList_toList]

/-- A whole number of 64 bits reads back from its digits. -/
lemma readsBack_int {n : Int} (hlo : -2 ^ 63 ≤ n) (hhi : n < 2 ^ 63) : ReadsBack (.number (.int n)) := by
  have htext : (Json.number (.int n)).compact.toList = (toString n).toList := rfl
  refine ⟨?_, ?_, ?_⟩
  · rw [htext]
    exact Numeric.toList_toString_ne_nil n
  · rw [htext, trim_of_forall fun d hd => (not_mem_reserved_of_mem_toString n d hd).2]
  · rw [htext, readLiteral_toString hlo hhi]

/-- A whole number that was read has 64 bits. -/
lemma int_of_readLiteral {n : Int} (h : readLiteral s = .number (.int n)) : -2 ^ 63 ≤ n ∧ n < 2 ^ 63 := by
  unfold readLiteral at h
  dsimp only at h
  split at h
  · cases h
  split at h
  · cases h
  split at h
  · cases h
  split at h
  · cases h
  split at h
  · next m hm =>
    cases h
    have hbounds := (Option.filter_eq_some_iff.1 hm).2
    simp only [Nat.pow_eq] at hbounds
    simp at hbounds
    omega
  · split at h <;> cases h

/-- A plain literal that was read reads back. -/
lemma ReadFrom.readsBack (h : c.ReadFrom front) (hplain : IsPlain c.literal) : ReadsBack c.literal := by
  obtain ⟨s, hs⟩ := h.literal
  cases hliteral : c.literal with
  | null => exact ⟨by decide, by decide, rfl⟩
  | bool b => cases b <;> exact ⟨by decide, by decide, rfl⟩
  | string s => exact readsBack_string (hliteral ▸ hplain)
  | number n =>
    rw [hliteral] at hplain hs
    cases n with
    | float x => cases hplain
    | int n =>
      split at hs
      · cases hs
      · obtain ⟨hlo, hhi⟩ := int_of_readLiteral hs.symm
        exact readsBack_int hlo hhi
  | array items => rw [hliteral] at hplain; cases hplain
  | object fields => rw [hliteral] at hplain; cases hplain

/-- A condition that is read from a text, with a literal that is written without escapes, is read again from the text
in which it is written: with the same path, operator and literal. -/
theorem parse?_text (h : parse? false text = some c) (hplain : IsPlain c.literal) :
    parse? false c.text = some c := by
  obtain ⟨front, hfront⟩ := exists_front h
  exact hfront.parse?_text_of_readsBack (hfront.readsBack hplain)

/-- The path begins with the sign of an operator and holds one in its brackets, and the literal holds another one
behind a single quote. -/
theorem parse?_text_of_signs :
    ∃ c, parse? false "=a['x>=y]'] contains  it's <= 5 " = some c ∧ IsPlain c.literal ∧
      c.text = "=a['x>=y]'] contains \"it's <= 5\"" ∧ parse? false c.text = some c := by
  have hread : (parse? false "=a['x>=y]'] contains  it's <= 5 ").map (fun c => (c.text, c.literal.string?)) =
      some ("=a['x>=y]'] contains \"it's <= 5\"", some "it's <= 5") := by decide +kernel
  obtain ⟨c, hc, hfields⟩ := Option.map_eq_some_iff.1 hread
  obtain ⟨htext, hstring⟩ := Prod.mk.inj hfields
  have hliteral : c.literal = .string "it's <= 5" := by
    cases hvalue : c.literal <;> rw [hvalue] at hstring <;> cases hstring
    rfl
  have hchars : ("it's <= 5".toList.all fun d => decide (d ≠ '"' ∧ d ≠ '\\' ∧ 0x20 ≤ d.toNat)) = true := by
    decide +kernel
  have hplain : IsPlain c.literal := by
    rw [hliteral]
    intro d hd
    exact of_decide_eq_true (List.all_eq_true.1 hchars d hd)
  exact ⟨c, hc, hplain, htext, parse?_text hc hplain⟩

end Condition

end EntityDump
