import EntityDump.Proofs.Filter.Brackets
import EntityDump.Proofs.Text.Bytes
/-!
# What a mask shows to bytes

A mask can go through a text byte by byte, where each byte is taken for the character of the same number: brackets and
quotes are ASCII, and so are no bytes of other characters. What it then shows is what it shows to characters, with each
mask character as often as there are bytes behind it (`exists_widened`), and so it is UTF-8 again. Byte by byte it
holds mask characters in the brackets of the text (`Brackets.OpenAt.getElem?_utf8`) and the bytes of the text elsewhere
(`Widened.openAt_or`), up to the first quote outside brackets (`Widened.exists_end`).
-/

namespace EntityDump

open Text
open String (utf8Len)

/-- A text with each of its bytes as the character of the same number. -/
def byteChars (s : List Char) : List Char :=
  (utf8 s).map Char.ofUInt8

/-- What is shown of a text for its operator when the mask goes byte by byte. -/
def byteScan (s : List Char) : List UInt8 :=
  (operatorScan (byteChars s)).map Char.toUInt8

variable {s s' out out' wide before : List Char} {c : Char} {m next : Mask} {i : Nat}

/-! ### Bytes as characters -/

lemma byteChars_append (s s' : List Char) : byteChars (s ++ s') = byteChars s ++ byteChars s' := by
  rw [byteChars, utf8_append, List.map_append, byteChars, byteChars]

/-- There are as many characters as bytes. -/
lemma length_byteChars (s : List Char) : (byteChars s).length = utf8Len s := by
  rw [byteChars, List.length_map, length_utf8]

/-- Taken back for bytes, the characters are the UTF-8 of the text. -/
lemma map_toUInt8_byteChars (s : List Char) : (byteChars s).map Char.toUInt8 = utf8 s := by
  have hself : Char.toUInt8 ∘ Char.ofUInt8 = id := funext UInt8.toUInt8_toUInt32
  rw [byteChars, List.map_map, hself, List.map_id]

/-- An ASCII character is taken for itself. -/
lemma byteChars_of_lt (h : c.toNat < 0x80) : byteChars [c] = [c] := by
  have hbyte : Char.ofUInt8 (UInt8.ofNat c.toNat) = c := by
    refine Char.toNat_inj.1 (?_ : (UInt8.ofNat c.toNat).toNat = c.toNat)
    rw [UInt8.toNat_ofNat']
    exact Nat.mod_eq_of_lt (by omega)
  rw [byteChars, utf8, List.flatMap_singleton, Json.utf8EncodeChar_of_lt h, List.map_singleton, hbyte]

/-- Mask characters are taken for themselves. -/
lemma byteChars_replicate (n : Nat) : byteChars (List.replicate n maskChar) = List.replicate n maskChar := by
  induction n with
  | zero => rfl
  | succ n ih =>
    rw [List.replicate_succ, ← List.singleton_append, byteChars_append, byteChars_of_lt (by decide), ih]

/-- Mask characters have a byte each. -/
lemma utf8_replicate (n : Nat) : utf8 (List.replicate n maskChar) = List.replicate n 0x5f := by
  rw [← map_toUInt8_byteChars, byteChars_replicate, List.map_replicate]
  rfl

/-- The bytes of a character that is not ASCII are not ASCII. -/
lemma le_toNat_of_mem_byteChars (h : 0x80 ≤ c.toNat) : ∀ d ∈ byteChars [c], 0x80 ≤ d.toNat := by
  obtain ⟨b, tail, he, hb, htail⟩ := Json.utf8EncodeChar_of_le h
  intro d hd
  rw [byteChars, utf8, List.flatMap_singleton, he] at hd
  obtain ⟨x, hx, rfl⟩ := List.mem_map.1 hd
  change 0x80 ≤ x.toNat
  rcases List.mem_cons.1 hx with rfl | hx
  · exact Nat.le_trans (by decide) hb
  · exact (htail x hx).1

/-- Brackets and quotes are ASCII. -/
lemma plain_of_le (h : 0x80 ≤ c.toNat) : c ≠ '[' ∧ c ≠ ']' ∧ Path.isQuote c = false := by
  have hne : ∀ d : Char, d.toNat < 0x80 → c ≠ d := by
    rintro d hd rfl
    exact absurd h (Nat.not_le.2 hd)
  refine ⟨hne '[' (by decide), hne ']' (by decide), ?_⟩
  rw [Path.isQuote, Bool.or_eq_false_iff, beq_eq_false_iff_ne, beq_eq_false_iff_ne]
  exact ⟨hne '\'' (by decide), hne '"' (by decide)⟩

/-- The bytes of a character are shown as the character is: as they are, or each of them by a mask character. -/
lemma shows_byteChars (hm : m.Proper) (hnext : m.next? c = some next) :
    Mask.Shows m (byteChars [c])
      (if m.depth > 0 || next.depth > 0 then List.replicate c.utf8Size maskChar else byteChars [c]) next := by
  rcases Nat.lt_or_ge c.toNat 0x80 with h | h
  · rw [byteChars_of_lt h, utf8Size_of_lt h]
    have hcons := Mask.Shows.cons hnext (.nil next)
    split
    · next hmasked => rwa [if_pos hmasked] at hcons
    · next hmasked => rwa [if_neg hmasked] at hcons
  · obtain ⟨hopening, hclosing, hquote⟩ := plain_of_le h
    obtain rfl : m = next := Option.some.inj ((hm.next?_of_plain hopening hclosing hquote).symm.trans hnext)
    have hbytes : ∀ d ∈ byteChars [c], d ≠ '[' ∧ d ≠ ']' ∧ Path.isQuote d = false :=
      fun d hd => plain_of_le (le_toNat_of_mem_byteChars h d hd)
    by_cases hdepth : m.depth > 0
    · have hhides := Mask.shows_inside hdepth fun d hd =>
        hm.next?_of_plain (hbytes d hd).1 (hbytes d hd).2.1 (hbytes d hd).2.2
      rw [length_byteChars] at hhides
      simpa [hdepth] using hhides
    · obtain rfl := hm.eq_start (Nat.eq_zero_of_not_pos hdepth)
      exact Mask.shows_outside hbytes

/-! ### Widened texts -/

/-- What is shown of a text to characters and to bytes: a character as itself, or a mask character for it and one for
each of its bytes. -/
inductive Widened : List Char → List Char → List Char → Prop
  | nil (s : List Char) : Widened s [] []
  | own {s out wide : List Char} (c : Char) : Widened s out wide → Widened (c :: s) (c :: out) (c :: wide)
  | masked {s out wide : List Char} (c : Char) : Widened s out wide →
      Widened (c :: s) (maskChar :: out) (List.replicate c.utf8Size maskChar ++ wide)

/-- What is shown to bytes widens what is shown to characters. -/
lemma Mask.Proper.exists_widened (hm : m.Proper) (s : List Char) :
    ∃ wide, Widened s (m.apply s) wide ∧ m.apply (byteChars s) = byteChars wide := by
  induction s generalizing m with
  | nil => exact ⟨[], .nil _, rfl⟩
  | cons c s ih =>
    rw [Mask.apply, ← List.singleton_append (l := s), byteChars_append]
    cases hnext : m.next? c with
    | none =>
      have hascii : c.toNat < 0x80 := by
        by_contra h
        obtain ⟨hopening, hclosing, hquote⟩ := plain_of_le (Nat.not_lt.1 h)
        rw [hm.next?_of_plain hopening hclosing hquote] at hnext
        cases hnext
      refine ⟨[], .nil _, ?_⟩
      rw [byteChars_of_lt hascii, List.singleton_append, Mask.apply, hnext]
      rfl
    | some next =>
      obtain ⟨wide, hwide, hbytes⟩ := ih (hm.step hnext)
      rw [(shows_byteChars hm hnext).apply_append, hbytes]
      dsimp only
      split
      · refine ⟨_, hwide.masked c, ?_⟩
        rw [byteChars_append, byteChars_replicate]
      · exact ⟨_, hwide.own c, (byteChars_append [c] wide).symm⟩

/-- What is shown to bytes is a text, and widens what is shown to characters. -/
theorem exists_widened (s : List Char) : ∃ wide, Widened s (operatorScan s) wide ∧ byteScan s = utf8 wide := by
  obtain ⟨wide, hwide, hbytes⟩ := Mask.proper_start.exists_widened s
  exact ⟨wide, hwide, by rw [byteScan, operatorScan, hbytes, map_toUInt8_byteChars]⟩

namespace Widened

/-- Mask characters are as long as there are many. -/
lemma utf8Len_replicate (n : Nat) : utf8Len (List.replicate n maskChar) = n := by
  induction n with
  | zero => rfl
  | succ n ih => rw [List.replicate_succ, String.utf8Len_cons, ih]; rfl

/-- What is shown is at most as long as the text. -/
lemma utf8Len_le (h : Widened s out wide) : utf8Len wide ≤ utf8Len s := by
  induction h with
  | nil s => exact Nat.zero_le _
  | own c _ ih => exact Nat.add_le_add_right ih _
  | masked c _ ih =>
    rw [String.utf8Len_append, utf8Len_replicate, String.utf8Len_cons]
    omega

/-- Where something is shown for the whole of a text, what comes behind is shown apart. -/
lemma exists_of_append (h : Widened (s ++ s') (out ++ out') wide) (hlength : out.length = s.length) :
    ∃ first second, wide = first ++ second ∧ utf8Len first = utf8Len s ∧ Widened s out first ∧
      Widened s' out' second := by
  induction out generalizing s wide with
  | nil =>
    obtain rfl := List.length_eq_zero_iff.1 hlength.symm
    exact ⟨[], wide, rfl, rfl, .nil _, h⟩
  | cons d out ih =>
    obtain ⟨c, s, rfl⟩ := List.exists_cons_of_length_eq_add_one hlength.symm
    have hrest : out.length = s.length := Nat.succ_injective hlength
    cases h with
    | own _ h =>
      obtain ⟨first, second, rfl, hlen, hfirst, hsecond⟩ := ih h hrest
      exact ⟨_, second, rfl, by rw [String.utf8Len_cons, hlen, String.utf8Len_cons], hfirst.own _, hsecond⟩
    | masked c h =>
      obtain ⟨first, second, rfl, hlen, hfirst, hsecond⟩ := ih h hrest
      refine ⟨_, second, (List.append_assoc _ _ _).symm, ?_, hfirst.masked c, hsecond⟩
      rw [String.utf8Len_append, utf8Len_replicate, hlen, String.utf8Len_cons, Nat.add_comm]

/-- Of what is hidden each byte is a mask character. -/
lemma eq_replicate (h : Widened s (List.replicate s.length maskChar) wide) :
    wide = List.replicate (utf8Len s) maskChar := by
  induction s generalizing wide with
  | nil =>
    cases h
    rfl
  | cons c s ih =>
    rw [List.length_cons, List.replicate_succ] at h
    rw [String.utf8Len_cons, Nat.add_comm, ← List.replicate_append_replicate]
    cases h with
    | own _ h => rw [ih h]; rfl
    | masked _ h => rw [ih h]

end Widened

/-! ### Brackets in what is shown -/

namespace Brackets

/-- What is shown of a text outside brackets stands before what is shown of the rest. -/
lemma Outside.operatorScan_append (h : Outside before) (rest : List Char) :
    operatorScan (before ++ rest) = operatorScan before ++ operatorScan rest ∧
      (operatorScan before).length = before.length := by
  obtain ⟨out, hout⟩ := h.exists_shows
  rw [operatorScan, operatorScan, hout.apply_eq]
  exact ⟨hout.apply_append rest, hout.length_eq⟩

/-- Where a bracket is open a byte is shown as a mask character. -/
lemma OpenAt.getElem?_utf8 (h : OpenAt s i) (hwide : Widened s (operatorScan s) wide) :
    (utf8 wide)[i]? = some 0x5f := by
  obtain ⟨before, whole, behind, rfl, hbefore, hwhole, hle, hlt⟩ := h
  obtain ⟨last, hlast⟩ := hwhole.exists_hides
  obtain ⟨hscan, hlength⟩ := hbefore.operatorScan_append (whole ++ behind)
  have hhidden : operatorScan (whole ++ behind) = List.replicate whole.length maskChar ++ last.apply behind :=
    Mask.Shows.apply_append hlast behind
  rw [hscan, hhidden] at hwide
  obtain ⟨first, second, rfl, hfirst, -, hsecond⟩ := hwide.exists_of_append hlength
  obtain ⟨hidden, third, rfl, hlen, hhidden, -⟩ := hsecond.exists_of_append List.length_replicate
  obtain ⟨n, rfl⟩ := Nat.exists_eq_add_of_le hle
  rw [Nat.add_lt_add_iff_left] at hlt
  rw [← hfirst, getElem?_utf8_append_right, getElem?_utf8_append_left (by rwa [hlen]), hhidden.eq_replicate,
    utf8_replicate, List.getElem?_replicate_of_lt hlt]

/-- Each byte of a text is shown as it is or belongs to a bracket, whatever comes behind the text. -/
def Bytewise (s : List Char) : Prop :=
  ∀ (wide : List Char) (i : Nat), Widened s (operatorScan s) wide → i < utf8Len s → ∀ rest,
    OpenAt (s ++ rest) i ∨ (utf8 wide)[i]? = (utf8 s)[i]?

/-- Two texts of which the first stands outside brackets are shown one after the other. -/
lemma Bytewise.append (h : Outside s) (hs : Bytewise s) (hs' : Bytewise s') : Bytewise (s ++ s') := by
  intro wide i hwide hi rest
  obtain ⟨hscan, hlength⟩ := h.operatorScan_append s'
  rw [hscan] at hwide
  obtain ⟨first, second, rfl, hlen, hfirst, hsecond⟩ := hwide.exists_of_append hlength
  rw [List.append_assoc]
  rcases Nat.lt_or_ge i (utf8Len s) with hlt | hge
  · rw [getElem?_utf8_append_left (by rwa [hlen]), getElem?_utf8_append_left hlt]
    exact hs first i hfirst hlt (s' ++ rest)
  · obtain ⟨n, rfl⟩ := Nat.exists_eq_add_of_le hge
    rw [String.utf8Len_append, Nat.add_lt_add_iff_left] at hi
    rw [getElem?_utf8_append_right, ← hlen, getElem?_utf8_append_right, hlen]
    exact (hs' second n hsecond hi rest).imp_left (.append_left h)

/-- A character that is neither a bracket nor a quote is shown with its own bytes. -/
lemma bytewise_char (hopening : c ≠ '[') (hquote : Path.isQuote c = false) : Bytewise [c] := by
  intro wide _ hwide _ _
  have hscan : operatorScan [c] = [c] := (shows_char hopening hquote).apply_eq
  rw [hscan] at hwide
  refine .inr ?_
  cases hwide with
  | own _ h =>
    cases h
    rfl
  | masked _ h =>
    cases h
    rfl

/-- A text outside brackets is shown byte by byte, and mask characters for its brackets. -/
lemma Outside.bytewise (h : Outside s) : Bytewise s := by
  induction h with
  | nil => exact fun _ _ _ hi => absurd hi (Nat.not_lt_zero _)
  | char hopening hquote _ ih => exact Bytewise.append (.char hopening hquote .nil) (bytewise_char hopening hquote) ih
  | @bracket inner _ hinner _ ih =>
    have hwhole : Outside ('[' :: (inner ++ [']'])) := by simpa using Outside.bracket hinner .nil
    refine Bytewise.append hwhole (fun _ _ _ hi rest => .inl ?_) ih
    exact ⟨[], _, rest, rfl, .nil, .closed rest hinner, Nat.zero_le _, by simpa using hi⟩

/-- At a quote outside brackets nothing more is shown. -/
lemma operatorScan_of_quote {rest : List Char} (h : ∃ q ∈ rest.head?, Path.isQuote q = true) :
    operatorScan rest = [] := by
  obtain ⟨q, hhead, hq⟩ := h
  obtain ⟨behind, rfl⟩ := List.head?_eq_some_iff.1 hhead
  have hnext : Mask.next? {} q = none := by
    rcases Path.isQuote_iff.1 hq with rfl | rfl <;> rfl
  rw [operatorScan, Mask.apply, hnext]

end Brackets

open Brackets

namespace Widened

/-- What is shown is shown of the text outside brackets, and of a bracket that does not close if one comes behind. -/
lemma exists_parts (h : Widened s (operatorScan s) wide) :
    ∃ before rest first second, s = before ++ rest ∧ wide = first ++ second ∧ Outside before ∧
      utf8Len first = utf8Len before ∧ Widened before (operatorScan before) first ∧
      (second = [] ∧ (rest = [] ∨ ∃ q ∈ rest.head?, Path.isQuote q = true) ∨
        second = List.replicate (utf8Len rest) maskChar ∧ ∃ inner, rest = '[' :: inner ∧ Unclosed inner) := by
  obtain ⟨before, rest, rfl, hbefore, hrest⟩ := exists_outside s
  obtain ⟨hscan, hlength⟩ := hbefore.operatorScan_append rest
  rw [hscan] at h
  obtain ⟨first, second, rfl, hlen, hfirst, hsecond⟩ := h.exists_of_append hlength
  refine ⟨before, rest, first, second, rfl, rfl, hbefore, hlen, hfirst, ?_⟩
  rcases hrest with rfl | hquote | ⟨inner, rfl, hinner⟩
  · cases hsecond
    exact .inl ⟨rfl, .inl rfl⟩
  · rw [operatorScan_of_quote hquote] at hsecond
    cases hsecond
    exact .inl ⟨rfl, .inr hquote⟩
  · obtain ⟨last, hhides⟩ := (Whole.unclosed hinner).exists_hides
    rw [operatorScan, Mask.Shows.apply_eq hhides] at hsecond
    exact .inr ⟨hsecond.eq_replicate, inner, rfl, hinner⟩

/-- Each byte that is shown belongs to a bracket of the text or is the byte of the text. -/
theorem openAt_or (h : Widened s (operatorScan s) wide) (hi : i < utf8Len wide) :
    OpenAt s i ∨ (utf8 wide)[i]? = (utf8 s)[i]? := by
  obtain ⟨before, rest, first, second, rfl, rfl, hbefore, hlen, hfirst, hsecond⟩ := h.exists_parts
  rcases Nat.lt_or_ge i (utf8Len before) with hlt | hge
  · rw [getElem?_utf8_append_left (by rwa [hlen]), getElem?_utf8_append_left hlt]
    exact hbefore.bytewise first i hfirst hlt rest
  · rw [String.utf8Len_append, hlen] at hi
    rcases hsecond with ⟨rfl, -⟩ | ⟨rfl, inner, rfl, hinner⟩
    · exact absurd hi (Nat.not_lt.2 hge)
    · rw [utf8Len_replicate] at hi
      exact .inl ⟨before, _, [], by rw [List.append_nil], hbefore, .unclosed hinner, hge, hi⟩

/-- Something is shown for every byte of the text, or up to a quote outside brackets. -/
theorem exists_end (h : Widened s (operatorScan s) wide) :
    utf8Len wide = utf8Len s ∨ ∃ before q behind, s = before ++ q :: behind ∧ Outside before ∧
      Path.isQuote q = true ∧ utf8Len wide = utf8Len before := by
  obtain ⟨before, rest, first, second, rfl, rfl, hbefore, hlen, -, hsecond⟩ := h.exists_parts
  rw [String.utf8Len_append, String.utf8Len_append, hlen]
  rcases hsecond with ⟨rfl, rfl | ⟨q, hhead, hq⟩⟩ | ⟨rfl, -⟩
  · exact .inl rfl
  · obtain ⟨behind, rfl⟩ := List.head?_eq_some_iff.1 hhead
    exact .inr ⟨before, q, behind, rfl, hbefore, hq, rfl⟩
  · -- An open bracket goes on to the end.
    rw [utf8Len_replicate]
    exact .inl rfl

end Widened

/-! ### Alignment -/

/-- What is shown of a text lies over its bytes. -/
structure Aligned (text scan : String) : Prop where
  size_le : scan.utf8ByteSize ≤ text.utf8ByteSize
  /-- Where a bracket of the text is open, mask characters are shown. -/
  masked : ∀ i, OpenAt text.toList i → scan.toUTF8.data.toList[i]? = some 0x5f
  /-- Elsewhere the bytes of the text are shown. -/
  own : ∀ i < scan.utf8ByteSize, ¬ OpenAt text.toList i →
    scan.toUTF8.data.toList[i]? = text.toUTF8.data.toList[i]?
  /-- The whole text is shown, or what stands before a quote outside brackets. -/
  stops : scan.utf8ByteSize = text.utf8ByteSize ∨ ∃ before q behind, text.toList = before ++ q :: behind ∧
    Outside before ∧ Path.isQuote q = true ∧ scan.utf8ByteSize = utf8Len before

/-- What widens the text that is shown for conditions is aligned with the text. -/
lemma Widened.aligned {text scan : String} (h : Widened text.toList (operatorScan text.toList) scan.toList) :
    Aligned text scan where
  size_le := by simpa only [String.utf8Len_toList] using h.utf8Len_le
  masked i hopen := by
    rw [toUTF8_eq_utf8]
    exact hopen.getElem?_utf8 h
  own i hi hopen := by
    rw [← String.utf8Len_toList] at hi
    rw [toUTF8_eq_utf8, toUTF8_eq_utf8]
    exact (h.openAt_or hi).resolve_left hopen
  stops := by simpa only [String.utf8Len_toList] using h.exists_end

end EntityDump
