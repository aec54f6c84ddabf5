import EntityDump.Proofs.Json.StringToken
import EntityDump.Proofs.Text.Split
import Mathlib.Data.String.Basic
/-!
# Positions in bytes

A text takes its characters' bytes in UTF-8, and a position that counts bytes cuts it only where a character begins or
the text ends (`cutAt?_eq_some_iff`, `isSome_cutAt?_iff`). `matchIndices` lists the byte positions of a word in a text,
none of them inside an earlier occurrence; that passes over nothing where the word does not overlap itself
(`matchIndices_skip`).
-/

namespace EntityDump.Text

open String (utf8Len)

variable {word s front behind : List Char} {c : Char} {i : Nat}

/-! ### Bytes of characters -/

/-- The bytes of a text in UTF-8. -/
def utf8 (s : List Char) : List UInt8 :=
  s.flatMap String.utf8EncodeChar

lemma utf8_cons (c : Char) (s : List Char) : utf8 (c :: s) = String.utf8EncodeChar c ++ utf8 s :=
  List.flatMap_cons

lemma utf8_append (s s' : List Char) : utf8 (s ++ s') = utf8 s ++ utf8 s' :=
  List.flatMap_append

/-- A text is as long in UTF-8 as its bytes. -/
lemma length_utf8 (s : List Char) : (utf8 s).length = utf8Len s := by
  induction s with
  | nil => rfl
  | cons c s ih =>
    rw [utf8_cons, List.length_append, ih, String.length_utf8EncodeChar, String.utf8Len_cons, Nat.add_comm]

/-- The bytes at the beginning do not depend on what follows. -/
lemma getElem?_utf8_append_left (h : i < utf8Len s) (s' : List Char) : (utf8 (s ++ s'))[i]? = (utf8 s)[i]? := by
  rw [utf8_append, List.getElem?_append_left (by rwa [length_utf8])]

/-- Behind a text come the bytes of what follows it. -/
lemma getElem?_utf8_append_right (s s' : List Char) (i : Nat) : (utf8 (s ++ s'))[utf8Len s + i]? = (utf8 s')[i]? := by
  rw [utf8_append, ← length_utf8, List.getElem?_append_right (Nat.le_add_right _ i), Nat.add_sub_cancel_left]

/-- The UTF-8 of a string is that of its characters. -/
lemma toUTF8_eq_utf8 (s : String) : s.toUTF8.data.toList = utf8 s.toList := by
  conv_lhs => rw [← String.ofList_toList (s := s), String.toUTF8_eq_toByteArray, String.toByteArray_ofList]
  rw [List.utf8Encode, List.data_toByteArray, List.toList_toArray, utf8]

/-- The bytes of a text are read as the text. -/
lemma decodeUtf8_utf8 (s : List Char) : decodeUtf8 (utf8 s) = .ok (String.ofList s) := by
  have hbytes : (⟨(utf8 s).toArray⟩ : ByteArray) = s.utf8Encode := by
    rw [ByteArray.ext_iff, List.utf8Encode, List.data_toByteArray, utf8]
  have hvalid : s.utf8Encode.IsValidUTF8 := .intro s rfl
  rw [decodeUtf8, hbytes, String.fromUTF8?, dif_pos hvalid]
  exact congrArg Except.ok (String.toByteArray_inj.1 rfl)

/-- An ASCII character takes one byte. -/
lemma utf8Size_of_lt (h : c.toNat < 0x80) : c.utf8Size = 1 := by
  rw [← String.length_utf8EncodeChar, Json.utf8EncodeChar_of_lt h, List.length_singleton]

/-! ### Cutting at a byte -/

/-- The parts of a text before and behind a byte position; nothing if the position lies inside a character or behind
the end. -/
def cutAt? : Nat → List Char → Option (List Char × List Char)
  | 0, s => some ([], s)
  | _ + 1, [] => none
  | i + 1, c :: s =>
    if c.utf8Size ≤ i + 1 then (cutAt? (i + 1 - c.utf8Size) s).map fun (front, behind) => (c :: front, behind)
    else none

/-- A text is cut in two at the number of bytes of its front. -/
lemma cutAt?_append (front behind : List Char) : cutAt? (utf8Len front) (front ++ behind) = some (front, behind) := by
  induction front with
  | nil => simp [cutAt?]
  | cons c front ih =>
    have hpos := c.utf8Size_pos
    obtain ⟨n, hn⟩ : ∃ n, utf8Len (c :: front) = n + 1 :=
      Nat.exists_eq_add_one.2 (by rw [String.utf8Len_cons]; omega)
    have hlength : n + 1 = utf8Len front + c.utf8Size := by rw [← hn, String.utf8Len_cons]
    rw [hn, List.cons_append, cutAt?, if_pos (by omega), hlength, Nat.add_sub_cancel, ih]
    rfl

/-- A text is cut at a byte position exactly if the part before it takes so many bytes. -/
theorem cutAt?_eq_some_iff : cutAt? i s = some (front, behind) ↔ s = front ++ behind ∧ utf8Len front = i := by
  refine ⟨fun h => ?_, ?_⟩
  · fun_induction cutAt? i s generalizing front with
    | case1 s =>
      obtain ⟨rfl, rfl⟩ := Prod.mk.inj (Option.some.inj h)
      exact ⟨rfl, rfl⟩
    | case2 => cases h
    | case3 i c s hsize ih =>
      obtain ⟨⟨front', behind'⟩, hcut, heq⟩ := Option.map_eq_some_iff.1 h
      obtain ⟨rfl, rfl⟩ := Prod.mk.inj heq
      obtain ⟨rfl, hlength⟩ := ih hcut
      exact ⟨rfl, by rw [String.utf8Len_cons]; omega⟩
    | case4 => cases h
  · rintro ⟨rfl, rfl⟩
    exact cutAt?_append front behind

/-- Behind a cut the bytes are those of what stands behind it. -/
lemma drop_utf8_of_cutAt? (h : cutAt? i s = some (front, behind)) : (utf8 s).drop i = utf8 behind := by
  obtain ⟨rfl, rfl⟩ := cutAt?_eq_some_iff.1 h
  rw [utf8_append, ← length_utf8, List.drop_left]

/-- A text is cut where a character begins or the text ends. -/
theorem isSome_cutAt?_iff (s : String) (i : Nat) :
    (cutAt? i s.toList).isSome = true ↔ String.Pos.Raw.IsValid s ⟨i⟩ := by
  rw [Option.isSome_iff_exists, String.Pos.Raw.isValid_iff_exists_append]
  constructor
  · rintro ⟨⟨front, behind⟩, hcut⟩
    obtain ⟨hs, rfl⟩ := cutAt?_eq_some_iff.1 hcut
    refine ⟨String.ofList front, String.ofList behind, ?_, ?_⟩
    · rw [← String.ofList_append, ← hs, String.ofList_toList]
    · simp [String.rawEndPos, String.utf8ByteSize_ofList]
  · rintro ⟨front, behind, rfl, hi⟩
    refine ⟨(front.toList, behind.toList), cutAt?_eq_some_iff.2 ⟨String.toList_append, ?_⟩⟩
    rw [String.utf8Len_toList]
    exact (congrArg String.Pos.Raw.byteIdx hi).symm

/-! ### Occurrences of a word -/

/-- The byte positions at which a word stands in a text, from the left, none of them inside an earlier occurrence. The
given characters begin at `position`, and `skip` of them belong to an occurrence already. -/
def matchIndices (word : List Char) (position skip : Nat) : List Char → List Nat
  | [] => []
  | c :: s =>
    if skip = 0 ∧ word <+: c :: s then position :: matchIndices word (position + c.utf8Size) (word.length - 1) s
    else matchIndices word (position + c.utf8Size) (skip - 1) s

/-- A match counts where the text begins with the word, and the search goes on behind it. -/
lemma matchIndices_cons_of_isPrefix (h : word <+: c :: s) (position : Nat) :
    matchIndices word position 0 (c :: s) =
      position :: matchIndices word (position + c.utf8Size) (word.length - 1) s := by
  rw [matchIndices, if_pos ⟨rfl, h⟩]

/-- Where the text does not begin with the word the search goes on behind the first character. -/
lemma matchIndices_cons_of_not_isPrefix (h : ¬ word <+: c :: s) (position : Nat) :
    matchIndices word position 0 (c :: s) = matchIndices word (position + c.utf8Size) 0 s := by
  rw [matchIndices, if_neg (mt And.right h)]

/-- Where the word does not stand there is nothing to be passed over. -/
lemma matchIndices_skip {skip : Nat} (h : ∀ n < skip, ¬ word <+: s.drop n) (position : Nat) :
    matchIndices word position skip s = matchIndices word position 0 s := by
  induction s generalizing skip position with
  | nil => rfl
  | cons c s ih =>
    cases skip with
    | zero => rfl
    | succ skip =>
      have hrest : ∀ n < skip, ¬ word <+: s.drop n := fun n hn => h (n + 1) (Nat.succ_lt_succ hn)
      rw [matchIndices_cons_of_not_isPrefix (h 0 (Nat.succ_pos skip)), matchIndices,
        if_neg (mt And.left (Nat.succ_ne_zero skip)), Nat.add_sub_cancel, ih hrest]

/-- A word that does not overlap itself does not stand again before it ends. -/
lemma not_isPrefix_drop_of_isPrefix (hword : ∀ n < word.length, 0 < n → ¬ word.drop n <+: word) (h : word <+: s)
    (hpos : 0 < i) (hi : i < word.length) : ¬ word <+: s.drop i := by
  intro hagain
  obtain ⟨rest, rfl⟩ := h
  rw [List.drop_append_of_le_length (Nat.le_of_lt hi)] at hagain
  refine hword i hi hpos (List.prefix_of_prefix_length_le (List.prefix_append _ rest) hagain ?_)
  rw [List.length_drop]
  omega

end EntityDump.Text
