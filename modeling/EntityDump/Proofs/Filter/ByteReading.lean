import EntityDump.Proofs.Filter.ByteScan
import EntityDump.Proofs.Filter.Literal
/-!
# Conditions read by bytes

A condition can be read from the bytes of its text: an operator is looked for in what the mask shows to bytes, and the
text is cut at the byte position where it is found and behind it (`Condition.parseBytes?`). No character is cut by that
and the same condition is read as by characters (`Condition.parseBytes?_eq_parse?`), as operators hold no mask
character and so stand where the text has them (`Widened.exists_of_isPrefix`). All of it is said at once by
`byteScan_aligned`.
-/

namespace EntityDump

open Text
open Brackets (OpenAt)
open String (utf8Len)

/-! ### Reading by bytes -/

/-- A word at a byte position stands behind a blank and in front of a blank or the end; nothing is given if the text
cannot be cut there. -/
def isDelimited? (word scan : List Char) (i : Nat) : Option Bool := do
  let (before, _) ← cutAt? i scan
  let (_, behind) ← cutAt? (i + utf8Len word) scan
  return before.getLast?.any isBlank && behind.head?.all isBlank

namespace Operator

/-- The byte position of the operator in what is shown of a text, if it is found; nothing is given if what is shown
cannot be cut where the word of the operator stands. -/
def position? (o : Operator) (scan : List Char) : Option (Option Nat) :=
  let found := matchIndices o.symbol.toList 0 0 scan
  if o.isWord then found.findM? (isDelimited? o.symbol.toList scan) else some found.head?

/-- The text before and behind the operator, if it is found; nothing is given if the text cannot be cut there. -/
def cut? (o : Operator) (text scan : List Char) : Option (Option (List Char × List Char)) := do
  match ← o.position? scan with
  | none => return none
  | some i =>
    let (before, _) ← cutAt? i text
    let (_, behind) ← cutAt? (i + utf8Len o.symbol.toList) text
    return some (before, behind)

end Operator

namespace Condition

/-- Reads a condition from the text before and behind an operator. -/
def readAround? (twoSided : Bool) (o : Operator) (lhs rhs : List Char) : Option (Option Condition) :=
  let lhs := trim lhs
  let rhs := trim rhs
  if lhs.isEmpty || lhs.any isBlank then none
  else if (o == .exist) != rhs.isEmpty then none
  else
    let literal := if o == .exist then .null else readLiteral rhs
    let (side, path) := if twoSided then splitSide lhs else (.left, lhs)
    match Path.parse (String.ofList path) with
    | .ok path => some (some ⟨side, path, o, literal⟩)
    | .error _ => some none

/-- Reads a condition around the first of some operators that stands right; nothing is given if a text cannot be cut
where an operator is found. -/
def readFirst? (twoSided : Bool) (text scan : List Char) : List Operator → Option (Option Condition)
  | [] => some none
  | o :: operators => do
    match ← o.cut? text scan with
    | none => readFirst? twoSided text scan operators
    | some (lhs, rhs) =>
      match readAround? twoSided o lhs rhs with
      | none => readFirst? twoSided text scan operators
      | some condition => return condition

/-- Reads a condition by bytes; nothing is given if what is shown is not UTF-8, or if a text cannot be cut where an
operator is found. -/
def parseBytes? (twoSided : Bool) (text : String) : Option (Option Condition) :=
  let text := trim text.toList
  if text.isEmpty then some none
  else
    match decodeUtf8 (byteScan text) with
    | .error _ => none
    | .ok scan => readFirst? twoSided text scan.toList Operator.all

end Condition

variable {s out wide word : List Char} {o : Operator} {n : Nat}

/-! ### Words in what is shown -/

namespace Widened

/-- What is shown of a text without its beginning is widened in the same way. -/
lemma drop (h : Widened s out wide) (n : Nat) : ∃ wide', Widened (s.drop n) (out.drop n) wide' := by
  induction h generalizing n with
  | nil s => exact ⟨[], by simpa using Widened.nil (s.drop n)⟩
  | own c h ih =>
    cases n with
    | zero => exact ⟨_, h.own c⟩
    | succ n => exact ih n
  | masked c h ih =>
    cases n with
    | zero => exact ⟨_, h.masked c⟩
    | succ n => exact ih n

/-- A character has at least one byte, so the same comes first to characters and to bytes. -/
lemma head?_eq (h : Widened s out wide) : wide.head? = out.head? := by
  cases h with
  | nil => rfl
  | own => rfl
  | masked c h =>
    obtain ⟨n, hn⟩ := Nat.exists_eq_add_one.2 c.utf8Size_pos
    rw [hn]
    rfl

/-- A word without mask characters that is shown to characters or to bytes stands in the text. -/
lemma exists_of_isPrefix (h : Widened s out wide) (hmask : maskChar ∉ word) (hword : word <+: out ∨ word <+: wide) :
    ∃ s' out' wide', s = word ++ s' ∧ out = word ++ out' ∧ wide = word ++ wide' ∧ Widened s' out' wide' := by
  induction word generalizing s out wide with
  | nil => exact ⟨s, out, wide, rfl, rfl, rfl, h⟩
  | cons p word ih =>
    have hhead : wide.head? = some p := by
      rcases hword with ⟨rest, rfl⟩ | ⟨rest, rfl⟩
      · exact h.head?_eq
      · rfl
    cases h with
    | nil => cases hhead
    | own c h =>
      obtain rfl := Option.some.inj hhead
      have hrest := hword.imp (fun h => (List.cons_prefix_cons.1 h).2) fun h => (List.cons_prefix_cons.1 h).2
      obtain ⟨s', out', wide', rfl, rfl, rfl, h'⟩ := ih h (mt (List.mem_cons_of_mem _) hmask) hrest
      exact ⟨s', out', wide', rfl, rfl, rfl, h'⟩
    | masked c h =>
      rw [(h.masked c).head?_eq] at hhead
      exact absurd (by simp [← Option.some.inj hhead]) hmask

/-- A word without mask characters stands in front of what is widened where it stands in front of what is shown. -/
lemma isPrefix_iff (h : Widened s out wide) (hmask : maskChar ∉ word) : word <+: wide ↔ word <+: out := by
  constructor
  · intro hprefix
    obtain ⟨-, out', -, -, rfl, -⟩ := h.exists_of_isPrefix hmask (.inr hprefix)
    exact List.prefix_append word out'
  · intro hprefix
    obtain ⟨-, -, wide', -, -, rfl, -⟩ := h.exists_of_isPrefix hmask (.inl hprefix)
    exact List.prefix_append word wide'

end Widened

/-- Mask characters are searched without a match, a byte each. -/
lemma matchIndices_replicate (hword : word ≠ []) (hmask : maskChar ∉ word) (position n : Nat) (s : List Char) :
    matchIndices word position 0 (List.replicate n maskChar ++ s) = matchIndices word (position + n) 0 s := by
  induction n generalizing position with
  | zero => rfl
  | succ n ih =>
    rw [List.replicate_succ, List.cons_append,
      matchIndices_cons_of_not_isPrefix (not_isPrefix_cons_of_not_mem hword hmask), ih, Nat.add_right_comm]
    rfl

/-- A place further back by a character is further back by the bytes of the character. -/
lemma map_utf8Len_take_cons (found : Option Nat) (position : Nat) (c : Char) (s : List Char) :
    (found.map (· + 1)).map (fun n => position + utf8Len ((c :: s).take n)) =
      found.map fun n => position + c.utf8Size + utf8Len (s.take n) := by
  rw [Option.map_map]
  congr 1
  funext n
  dsimp only [Function.comp_apply]
  rw [List.take_succ_cons, String.utf8Len_cons]
  omega

/-- The first place of a word in what is shown to bytes lies behind the bytes of the characters before the first place
in what is shown to characters. -/
lemma head?_matchIndices (h : Widened s out wide) (hword : word ≠ []) (hmask : maskChar ∉ word) (position : Nat) :
    (matchIndices word position 0 wide).head? =
      (Text.find? word out).map fun n => position + utf8Len (s.take n) := by
  induction h generalizing position with
  | nil => simp [matchIndices, Text.find?, hword]
  | @own _ _ wide c h ih =>
    by_cases hprefix : word <+: c :: wide
    · rw [matchIndices_cons_of_isPrefix hprefix, find?_cons_of_isPrefix (((h.own c).isPrefix_iff hmask).1 hprefix)]
      rfl
    · rw [matchIndices_cons_of_not_isPrefix hprefix, ih,
        find?_cons_of_not_isPrefix (mt ((h.own c).isPrefix_iff hmask).2 hprefix), map_utf8Len_take_cons]
  | masked c h ih =>
    rw [matchIndices_replicate hword hmask, ih,
      find?_cons_of_not_isPrefix (not_isPrefix_cons_of_not_mem hword hmask), map_utf8Len_take_cons]

/-- Where no word begins, the next character is looked at. -/
lemma findWord?_cons_of_not_isPrefix {c : Char} (h : ¬ word <+: c :: s) (before : Option Char) :
    findWord? word 0 before (c :: s) = (findWord? word 0 (some c) s).map (· + 1) := by
  have hnone : dropStart? word (c :: s) = none := by
    rwa [← Option.not_isSome_iff_eq_none, isSome_dropStart?_iff]
  rw [findWord?, hnone, ← findWord?_add 0 1]
  rfl

/-- Where a word begins, it is the one if blanks stand around it. -/
lemma findWord?_cons_of_eq_append {c : Char} {behind : List Char} (h : c :: s = word ++ behind) (before : Option Char) :
    findWord? word 0 before (c :: s) =
      if before.any isBlank && behind.head?.all isBlank then some 0
      else (findWord? word 0 (some c) s).map (· + 1) := by
  rw [findWord?, dropStart?_eq_some_iff.2 h, ← findWord?_add 0 1]
  rfl

/-- Between two parts of a text it is seen what stands around a word. -/
lemma isDelimited?_append (word front behind : List Char) :
    isDelimited? word (front ++ (word ++ behind)) (utf8Len front) =
      some (front.getLast?.any isBlank && behind.head?.all isBlank) := by
  have hcut := cutAt?_append (front ++ word) behind
  rw [String.utf8Len_append, List.append_assoc] at hcut
  rw [isDelimited?, cutAt?_append, hcut]
  rfl

/-- The first place of a word between blanks in what is shown to bytes lies behind the bytes of the characters before
the first such place in what is shown to characters. -/
lemma findM?_matchIndices (h : Widened s out wide) (hword : word ≠ []) (hmask : maskChar ∉ word)
    (hoverlap : ∀ n < word.length, 0 < n → ¬ word.drop n <+: word) (front : List Char) :
    (matchIndices word (utf8Len front) 0 wide).findM? (isDelimited? word (front ++ wide)) =
      some ((findWord? word 0 front.getLast? out).map fun n => utf8Len front + utf8Len (s.take n)) := by
  -- The search looks back for a blank, so what stands in front is carried along.
  induction h generalizing front with
  | nil => rfl
  | @own s out wide c h ih =>
    have hnext := ih (front ++ [c])
    rw [String.utf8Len_append, String.utf8Len_cons, String.utf8Len_nil, Nat.zero_add, List.getLast?_concat,
      List.append_assoc, List.singleton_append] at hnext
    by_cases hprefix : word <+: c :: wide
    · obtain ⟨s', out', wide', hs, hout, hwide, h'⟩ := (h.own c).exists_of_isPrefix hmask (.inr hprefix)
      have hdelimited := isDelimited?_append word front wide'
      rw [← hwide, h'.head?_eq] at hdelimited
      have hskip : ∀ n < word.length - 1, ¬ word <+: wide.drop n := fun n hn =>
        not_isPrefix_drop_of_isPrefix (i := n + 1) hoverlap hprefix (Nat.succ_pos n) (by omega)
      rw [matchIndices_cons_of_isPrefix hprefix, findWord?_cons_of_eq_append hout, List.findM?, hdelimited]
      cases front.getLast?.any isBlank && out'.head?.all isBlank with
      | true => rfl
      | false =>
        rw [if_neg Bool.false_ne_true, map_utf8Len_take_cons, ← hnext]
        exact congrArg _ (matchIndices_skip hskip _)
    · rw [matchIndices_cons_of_not_isPrefix hprefix,
        findWord?_cons_of_not_isPrefix (mt ((h.own c).isPrefix_iff hmask).2 hprefix), map_utf8Len_take_cons]
      exact hnext
  | @masked s out wide c h ih =>
    have hnext := ih (front ++ List.replicate c.utf8Size maskChar)
    have hlast : (front ++ List.replicate c.utf8Size maskChar).getLast? = some maskChar := by
      rw [List.getLast?_append, List.getLast?_replicate, if_neg (Nat.ne_of_gt c.utf8Size_pos)]
      rfl
    rw [String.utf8Len_append, Widened.utf8Len_replicate, hlast, List.append_assoc] at hnext
    rw [matchIndices_replicate hword hmask, hnext,
      findWord?_cons_of_not_isPrefix (not_isPrefix_cons_of_not_mem hword hmask), map_utf8Len_take_cons]

/-! ### Operators in what is shown -/

namespace Operator

/-- No operator holds a mask character. -/
lemma maskChar_not_mem_symbol (o : Operator) : maskChar ∉ o.symbol.toList := by
  cases o <;> decide

/-- No symbol overlaps itself. -/
lemma not_isPrefix_drop_symbol (o : Operator) :
    ∀ n < o.symbol.toList.length, 0 < n → ¬ o.symbol.toList.drop n <+: o.symbol.toList := by
  cases o <;> decide

/-- By bytes an operator is found behind the bytes of the characters before it. -/
theorem position?_eq (h : Widened s out wide) (o : Operator) :
    o.position? wide = some ((o.find? out).map fun n => utf8Len (s.take n)) := by
  rw [position?, find?]
  split
  · have hfound := findM?_matchIndices h symbol_ne_nil o.maskChar_not_mem_symbol o.not_isPrefix_drop_symbol []
    simpa only [String.utf8Len_nil, List.nil_append, List.getLast?_nil, Nat.zero_add] using hfound
  · have hfound := head?_matchIndices h symbol_ne_nil o.maskChar_not_mem_symbol 0
    simpa only [Nat.zero_add] using congrArg some hfound

/-- Where an operator is found in what is shown, it stands in the text. -/
lemma exists_drop_of_find? (h : Widened s out wide) (hfind : o.find? out = some n) :
    ∃ rest, s.drop n = o.symbol.toList ++ rest := by
  obtain ⟨wide', hdrop⟩ := h.drop n
  obtain ⟨rest, -, -, hrest, -⟩ :=
    hdrop.exists_of_isPrefix o.maskChar_not_mem_symbol (.inl (isPrefix_of_find? hfind))
  exact ⟨rest, hrest⟩

/-- A text is cut at the byte where an operator is found and behind it. -/
lemma exists_cutAt?_of_find? (h : Widened s out wide) (hfind : o.find? out = some n) :
    ∃ rest, s.drop n = o.symbol.toList ++ rest ∧
      cutAt? (utf8Len (s.take n)) s = some (s.take n, o.symbol.toList ++ rest) ∧
      cutAt? (utf8Len (s.take n) + utf8Len o.symbol.toList) s = some (s.take n ++ o.symbol.toList, rest) := by
  obtain ⟨rest, hrest⟩ := exists_drop_of_find? h hfind
  have hs : s = s.take n ++ (o.symbol.toList ++ rest) := by rw [← hrest, List.take_append_drop]
  refine ⟨rest, hrest, cutAt?_eq_some_iff.2 ⟨hs, rfl⟩, cutAt?_eq_some_iff.2 ⟨?_, String.utf8Len_append _ _⟩⟩
  rwa [List.append_assoc]

/-- The text is cut around an operator by bytes as by characters. -/
theorem cut?_eq_split? (h : Widened s (operatorScan s) wide) (o : Operator) :
    o.cut? s wide = some (o.split? s) := by
  rw [cut?, position?_eq h, split?]
  cases hfind : o.find? (operatorScan s) with
  | none => rfl
  | some n =>
    obtain ⟨rest, hdrop, hbefore, hbehind⟩ := exists_cutAt?_of_find? h hfind
    have hrest : s.drop (n + o.symbol.toList.length) = rest := by
      rw [← List.drop_drop, hdrop, List.drop_left]
    simp only [Option.map_some, Option.bind_eq_bind, Option.bind_some, hbefore, hbehind, hrest,
      Option.pure_def]

/-- The operator stands in a text from a byte position on, where the text can be cut, and behind it. -/
structure StandsAt (o : Operator) (text : String) (i : Nat) : Prop where
  isValid : String.Pos.Raw.IsValid text ⟨i⟩
  isValid_behind : String.Pos.Raw.IsValid text ⟨i + o.symbol.utf8ByteSize⟩
  bytes : o.symbol.toUTF8.data.toList <+: text.toUTF8.data.toList.drop i

/-- The position of an operator in what is shown is one in the text. -/
lemma standsAt_of_find? {text : String} (h : Widened text.toList out wide) (hfind : o.find? out = some n) :
    o.StandsAt text (utf8Len (text.toList.take n)) := by
  obtain ⟨rest, hdrop, hbefore, hbehind⟩ := exists_cutAt?_of_find? h hfind
  refine ⟨(isSome_cutAt?_iff _ _).1 (Option.isSome_of_eq_some hbefore), ?_, ?_⟩
  · rw [← String.utf8Len_toList]
    exact (isSome_cutAt?_iff _ _).1 (Option.isSome_of_eq_some hbehind)
  · rw [toUTF8_eq_utf8, toUTF8_eq_utf8, drop_utf8_of_cutAt? hbefore, utf8_append]
    exact List.prefix_append _ _

end Operator

/-! ### Conditions -/

namespace Condition

/-- A condition is read around an operator from the two sides of its first position. -/
lemma parseAround?_eq (twoSided : Bool) (s : List Char) (o : Operator) :
    parseAround? twoSided s o =
      match o.split? s with
      | none => none
      | some (lhs, rhs) => readAround? twoSided o lhs rhs :=
  rfl

/-- Around the first operator that stands right the same is read. -/
lemma readFirst?_eq (h : Widened s (operatorScan s) wide) (twoSided : Bool) (operators : List Operator) :
    readFirst? twoSided s wide operators = some (operators.findSome? (parseAround? twoSided s)).join := by
  induction operators with
  | nil => rfl
  | cons o operators ih =>
    rw [readFirst?, Operator.cut?_eq_split? h, List.findSome?_cons, parseAround?_eq]
    cases o.split? s with
    | none => exact ih
    | some parts =>
      obtain ⟨lhs, rhs⟩ := parts
      dsimp only
      cases hread : readAround? twoSided o lhs rhs with
      | none => simpa [hread] using ih
      | some condition => simp [hread]

/-- A condition is read by bytes as by characters, and no character of its text is cut by that. -/
theorem parseBytes?_eq_parse? (twoSided : Bool) (text : String) :
    parseBytes? twoSided text = some (parse? twoSided text) := by
  rw [parse?, parseChars?, parseBytes?]
  split
  · next hempty =>
    rw [List.isEmpty_iff.1 hempty]
    rfl
  · obtain ⟨wide, hwide, hbytes⟩ := exists_widened (trim text.toList)
    rw [hbytes, decodeUtf8_utf8]
    dsimp only
    rw [String.toList_ofList, readFirst?_eq hwide]

end Condition

/-- What is shown of a text to bytes is a text again and aligned with it. An operator that is found in it stands in the
text at the same bytes, so that no condition is read by cutting a character. -/
theorem byteScan_aligned (text : String) :
    ∃ scan : String, byteScan text.toList = scan.toUTF8.data.toList ∧ Aligned text scan ∧
      (∀ o : Operator, ∃ found, o.position? scan.toList = some found ∧ (∀ i ∈ found, o.StandsAt text i) ∧
        o.cut? text.toList scan.toList = some (o.split? text.toList)) ∧
      ∀ twoSided, Condition.parseBytes? twoSided text = some (Condition.parse? twoSided text) := by
  obtain ⟨wide, hwide, hbytes⟩ := exists_widened text.toList
  have hscan : (String.ofList wide).toList = wide := String.toList_ofList
  refine ⟨String.ofList wide, ?_, Widened.aligned (by rwa [hscan]), fun o => ?_,
    fun twoSided => Condition.parseBytes?_eq_parse? twoSided text⟩
  · rw [hbytes, toUTF8_eq_utf8, hscan]
  · rw [hscan]
    refine ⟨_, Operator.position?_eq hwide o, fun i hi => ?_, Operator.cut?_eq_split? hwide o⟩
    obtain ⟨n, hfind, rfl⟩ := Option.map_eq_some_iff.1 hi
    exact Operator.standsAt_of_find? hwide hfind

/-- A quoted key holds a closing bracket, an operator and a character of two bytes. -/
theorem byteScan_aligned_of_quoted_key :
    ∃ scan : String, scan = "é_________ >= ≥" ∧ OpenAt "é['ü]>='] >= ≥".toList 7 ∧
      scan.toUTF8.data.toList[7]? = some 0x5f ∧ ¬ OpenAt "é['ü]>='] >= ≥".toList 12 ∧
      scan.toUTF8.data.toList[12]? = "é['ü]>='] >= ≥".toUTF8.data.toList[12]? ∧
      Operator.greaterEq.StandsAt "é['ü]>='] >= ≥" 12 ∧
      Condition.parseBytes? false "é['ü]>='] >= ≥" = some (Condition.parse? false "é['ü]>='] >= ≥") := by
  obtain ⟨scan, hbytes, haligned, hoperators, hparse⟩ := byteScan_aligned "é['ü]>='] >= ≥"
  obtain rfl : scan = "é_________ >= ≥" := by
    have hshown : byteScan "é['ü]>='] >= ≥".toList = "é_________ >= ≥".toUTF8.data.toList := by decide
    exact String.toByteArray_inj.1 (ByteArray.ext (Array.toList_inj.1 (hbytes.symm.trans hshown)))
  have hopen : OpenAt "é['ü]>='] >= ≥".toList 7 :=
    ⟨['é'], "['ü]>=']".toList, " >= ≥".toList, by decide, .char (by decide) (by decide) .nil,
      .closed _ (.quoted rfl (by decide : '\'' ∉ "ü]>=".toList) .nil), by decide, by decide⟩
  have hshut : ¬ OpenAt "é['ü]>='] >= ≥".toList 12 := fun h =>
    absurd (haligned.masked 12 h) (by decide)
  obtain ⟨found, hfound, hstands, -⟩ := hoperators .greaterEq
  have hposition : Operator.greaterEq.position? "é_________ >= ≥".toList = some (some 12) := by decide
  obtain rfl := Option.some.inj (hfound.symm.trans hposition)
  exact ⟨_, rfl, hopen, haligned.masked 7 hopen, hshut, haligned.own 12 (by decide) hshut, hstands 12 rfl,
    hparse false⟩

end EntityDump
