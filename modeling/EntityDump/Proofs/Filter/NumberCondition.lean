import EntityDump.Proofs.Filter.OperatorScan
import EntityDump.Proofs.Filter.Separation
import EntityDump.Proofs.Numeric.Digits
/-!
# Conditions on whole numbers

A filter that names a field and a whole number of 64 bits, `id = 42`, is read as the condition that the field
is equal to the number (`parse_equal_int`). The number is read back from its digits (`readInt?_toString`), and
nothing in such a text can be taken for another operator, a quote or a separator (`reserved`).
-/

namespace EntityDump

open Text EntityDump.Path

/-! ### Whole numbers as text -/

namespace Numeric

variable (n : Int)

/-- A negative number is written as a sign and digits. -/
lemma toList_toString_negSucc (k : Nat) :
    (toString (Int.negSucc k)).toList = '-' :: Nat.toDigits 10 (k + 1) := by
  simp [toString, Int.repr]

/-- A number that is not negative is written in digits. -/
lemma toList_toString_ofNat (k : Nat) : (toString (Int.ofNat k)).toList = Nat.toDigits 10 k := by
  simp [toString, Int.repr]

/-- Something is written of every number. -/
lemma toList_toString_ne_nil : (toString n).toList ≠ [] := by
  cases n with
  | ofNat k =>
    rw [toList_toString_ofNat]
    exact Nat.toDigits_ne_nil
  | negSucc k =>
    rw [toList_toString_negSucc]
    exact List.cons_ne_nil _ _

/-- A whole number is written with digits and a sign. -/
lemma isAsciiDigit_of_mem_toString : ∀ c ∈ (toString n).toList, isAsciiDigit c = true ∨ c = '-' := by
  intro c hc
  cases n with
  | ofNat k =>
    rw [toList_toString_ofNat] at hc
    exact .inl (isAsciiDigit_of_mem_toDigits k c hc)
  | negSucc k =>
    rw [toList_toString_negSucc, List.mem_cons] at hc
    exact hc.symm.imp_left (isAsciiDigit_of_mem_toDigits (k + 1) c)

/-- The text of a whole number is read as the number. -/
lemma readInt?_toString : readInt? (toString n).toList = some n := by
  cases n with
  | ofNat k =>
    rw [toList_toString_ofNat]
    unfold readInt?
    split
    · next hminus =>
      have hdigit : isAsciiDigit '-' = true := isAsciiDigit_of_mem_toDigits k '-' (by simp [hminus])
      cases hdigit
    · rw [readNat?_toDigits]
      rfl
  | negSucc k =>
    rw [toList_toString_negSucc, readInt?, isDigitRun_toDigits, if_pos rfl, digitsValue_toDigits]
    rfl

/-- A whole number of 64 bits reads back from what is written of it. -/
lemma readInt64?_toString {n : Int} (hlo : -2 ^ 63 ≤ n) (hhi : n < 2 ^ 63) :
    readInt64? (toString n).toList = some n := by
  rw [readInt64?, readInt?_toString]
  simp only [Option.filter, Nat.pow_eq]
  rw [if_pos (by simp; omega)]

end Numeric

/-! ### Where the operator stands -/

/-- The quotes, the brackets, and the signs of operators and of the separator. -/
def reserved : List Char :=
  ['\'', '"', '[', ']', '=', '<', '>', '!', '&']

variable {s word : List Char}

/-- Characters that are not reserved are neither brackets nor quotes. -/
lemma ne_of_not_mem_reserved {c : Char} (h : c ∉ reserved) : c ≠ '[' ∧ c ≠ ']' ∧ isQuote c = false := by
  simp only [reserved, List.mem_cons, not_or] at h
  simp [isQuote, h]

/-- Without quotes and brackets the whole text is read for its operator. -/
lemma operatorScan_eq_self (h : ∀ c ∈ s, c ∉ reserved ∨ c = '=') : operatorScan s = s := by
  have hshows : Mask.Shows {} s s {} := by
    refine Mask.shows_outside fun c hc => ?_
    rcases h c hc with hplain | rfl
    · exact ne_of_not_mem_reserved hplain
    · decide
  exact hshows.apply_eq

/-- An operator is not found in a text without one of its signs. -/
lemma Operator.find?_eq_none {o : Operator} {c : Char} (hword : o.isWord = false) (hc : c ∈ o.symbol.toList)
    (habsent : c ∉ s) : o.find? s = none := by
  rw [Operator.find?, hword, if_neg Bool.false_ne_true, Text.find?_eq_none_iff]
  exact fun hfound => habsent (hfound.subset hc)

/-- The operators that are looked for before this one need another sign. -/
lemma leads_equal (h : ∀ c ∈ word, c ∉ reserved) : Operator.equal.Leads (' ' :: '=' :: ' ' :: word) := by
  have hposition : Operator.equal.find? (' ' :: '=' :: ' ' :: word) = some 1 := by
    simp [Operator.find?, Operator.isWord, Operator.symbol, find?, dropStart?]
  have habsent : ∀ c ∈ reserved, c ≠ '=' → c ∉ ' ' :: '=' :: ' ' :: word := by
    intro c hc hne hmem
    have hblank : c ≠ ' ' := by
      rintro rfl
      exact absurd hc (by decide)
    simp only [List.mem_cons, hne, hblank, false_or] at hmem
    exact h c hmem hc
  have hgreaterEq := Operator.find?_eq_none (o := .greaterEq) rfl (by decide)
    (habsent '>' (by decide) (by decide))
  have hlessEq := Operator.find?_eq_none (o := .lessEq) rfl (by decide) (habsent '<' (by decide) (by decide))
  have hnotEqual := Operator.find?_eq_none (o := .notEqual) rfl (by decide)
    (habsent '!' (by decide) (by decide))
  exact ⟨by simp [Operator.all, hgreaterEq, hlessEq, hnotEqual, hposition], hposition⟩

/-! ### Reading the condition -/

/-- A name, the sign and a word are read as a condition on what the name's path selects. -/
theorem parseChars?_equal {twoSided : Bool} {name path : List Char} {side : Side} {p : Path}
    (hname : ∀ c ∈ name, c ∉ reserved ∧ isBlank c = false) (hne : name ≠ [])
    (hword : ∀ c ∈ word, c ∉ reserved ∧ isBlank c = false) (hne' : word ≠ [])
    (hside : (if twoSided then splitSide name else (.left, name)) = (side, path))
    (hpath : Path.parse (String.ofList path) = .ok p) :
    Condition.parseChars? twoSided (name ++ " = ".toList ++ word) =
      some ⟨side, p, .equal, readLiteral word⟩ := by
  have htext : name ++ " = ".toList ++ word = name ++ ' ' :: (Operator.equal.symbol.toList ++ ' ' :: word) := by
    simp [Operator.symbol]
  have hscan : operatorScan (name ++ ' ' :: (Operator.equal.symbol.toList ++ ' ' :: word)) =
      name ++ ' ' :: '=' :: ' ' :: word := by
    have hsign : ∀ c ∈ [' ', '=', ' '], c ∉ reserved ∨ c = '=' := by simp [reserved]
    -- Brackets and quotes are reserved, so without them the mask shows the text as it is.
    refine operatorScan_eq_self fun c hc => ?_
    rcases List.mem_append.1 hc with hc | hc
    · exact .inl (hname c hc).1
    · rcases List.mem_append (s := [' ', '=', ' ']).1 hc with hc | hc
      · exact hsign c hc
      · exact .inl (hword c hc).1
  have hfront : ∀ c ∈ name, isBlank c = false ∧ c ∉ signs := by
    have hsigns : ∀ c ∈ signs, c ∈ reserved := by simp [signs, reserved]
    exact fun c hc => ⟨(hname c hc).2, fun hsign => (hname c hc).1 (hsigns c hsign)⟩
  have htrim : trim (' ' :: word) = word := by
    rw [trim_cons_of_isBlank (by decide), trim_of_forall fun c hc => (hword c hc).2]
  have hlast : ∀ c ∈ (Operator.equal.symbol.toList ++ ' ' :: word).getLast?, isBlank c = false := by
    intro c hc
    rw [List.getLast?_append_of_ne_nil _ (List.cons_ne_nil _ _), List.getLast?_cons_of_ne_nil hne'] at hc
    exact (hword c (List.mem_of_getLast? hc)).2
  have hfilled : (trim (' ' :: word)).isEmpty = (Operator.equal == .exist) := by
    rw [htrim, List.isEmpty_eq_false_iff.2 hne']
    rfl
  rw [htext, Condition.parseChars?_of_leads hscan rfl hfront (leads_equal fun c hc => (hword c hc).1) hne
    (fun c hc => (hname c hc).2) hlast hfilled hside hpath, htrim]
  rfl

/-! ### Whole numbers as literals -/

/-- No reserved character and no blank is written of a number. -/
lemma not_mem_reserved_of_mem_toString (n : Int) :
    ∀ c ∈ (toString n).toList, c ∉ reserved ∧ isBlank c = false := by
  have hreserved : (reserved.any fun c => isAsciiDigit c || c == '-') = false := by decide
  intro c hc
  have hdigit := Numeric.isAsciiDigit_of_mem_toString n c hc
  refine ⟨fun hmem => List.any_eq_false.1 hreserved c hmem (by simpa using hdigit), ?_⟩
  rcases hdigit with hdigit | rfl
  · exact Numeric.isBlank_of_isAsciiDigit hdigit
  · decide

/-- The text of a whole number of 64 bits is a literal for the number. -/
lemma readLiteral_toString {n : Int} (hlo : -2 ^ 63 ≤ n) (hhi : n < 2 ^ 63) :
    readLiteral (toString n).toList = .number (.int n) := by
  have htrim : trim (toString n).toList = (toString n).toList :=
    trim_of_forall fun c hc => (not_mem_reserved_of_mem_toString n c hc).2
  have hread := Numeric.readInt64?_toString hlo hhi
  obtain ⟨c, rest, htext⟩ := List.exists_cons_of_ne_nil (Numeric.toList_toString_ne_nil n)
  -- The first character tells the number from a string and from the words.
  have hfirst : isAsciiDigit c = true ∨ c = '-' :=
    Numeric.isAsciiDigit_of_mem_toString n c (htext ▸ List.mem_cons_self ..)
  have hne : ∀ d, isAsciiDigit d = false → d ≠ '-' → c ≠ d := by
    rintro d hd hminus rfl
    rcases hfirst with hdigit | hdigit
    · exact absurd (hdigit.symm.trans hd) (by decide)
    · exact hminus hdigit
  have hword : ∀ d, isAsciiDigit d = false → d ≠ '-' → ∀ word : String, word.toList.head? = some d →
      String.ofList (c :: rest) ≠ word := by
    rintro d hd hminus word hhead rfl
    rw [String.toList_ofList] at hhead
    exact hne d hd hminus (Option.some.inj hhead)
  unfold readLiteral
  dsimp only
  rw [htrim]
  rw [htext] at hread ⊢
  rw [unquote?, if_neg (hne '"' rfl (by decide)), unquote?, if_neg (hne '\'' rfl (by decide))]
  dsimp only [Option.orElse]
  rw [if_neg (hword 't' rfl (by decide) "true" rfl), if_neg (hword 'f' rfl (by decide) "false" rfl),
    if_neg (hword 'n' rfl (by decide) "null" rfl), hread]

namespace FilterSet

/-- A filter that names a path and a whole number of 64 bits with the sign between them is the condition that
what the path selects is equal to the number. -/
theorem parse_equal_int (strict : Bool) {twoSided : Bool} {name : String} {path : List Char} {side : Side}
    {p : Path} {n : Int} (hname : ∀ c ∈ name.toList, c ∉ reserved ∧ isBlank c = false) (hne : name.toList ≠ [])
    (hside : (if twoSided then splitSide name.toList else (.left, name.toList)) = (side, path))
    (hpath : Path.parse (String.ofList path) = .ok p) (hlo : -2 ^ 63 ≤ n) (hhi : n < 2 ^ 63) :
    parse strict twoSided [name ++ " = " ++ toString n] =
      .ok { conditions := [⟨side, p, .equal, .number (.int n)⟩] } := by
  have htext : (name ++ " = " ++ toString n).toList = name.toList ++ " = ".toList ++ (toString n).toList := by
    rw [String.toList_append, String.toList_append]
  have hnumber := not_mem_reserved_of_mem_toString n
  have hread := parseChars?_equal hname hne hnumber (Numeric.toList_toString_ne_nil n) hside hpath
  rw [readLiteral_toString hlo hhi] at hread
  have habsent : ¬ separator <:+: name.toList ++ " = ".toList ++ (toString n).toList := by
    intro hsep
    have hmem : '&' ∈ name.toList ++ " = ".toList ++ (toString n).toList := hsep.subset (by decide)
    rw [List.mem_append, List.mem_append] at hmem
    rcases hmem with (hmem | hmem) | hmem
    · exact (hname _ hmem).1 (by decide)
    · exact absurd hmem (by decide)
    · exact (hnumber _ hmem).1 (by decide)
  have hsplit : splitAll separator (name ++ " = " ++ toString n).toList =
      [name.toList ++ " = ".toList ++ (toString n).toList] := by
    rw [htext]
    exact splitAll_of_find?_eq_none (find?_eq_none_iff.2 habsent)
  have hfilled := not_isEmpty_trim_of_parseChars? twoSided hread
  rw [parse, List.flatMap_singleton, hsplit]
  refine foldlM_addPart_of_mapM strict twoSided ?_
  rw [List.filter_cons_of_pos (by rw [hfilled]; rfl), List.filter_nil, List.mapM_cons, hread, List.mapM_nil]
  rfl

end FilterSet

end EntityDump
