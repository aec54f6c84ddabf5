import EntityDump.Proofs.Path.Grammar
import Mathlib.Data.List.Infix
/-!
# Reading paths that were written from segments

The text of some segments reads back as the same path exactly if it can be read (`parse_ofSegments_iff`): no key
is empty, no key in brackets holds what closes the bracket, and no blank at either end of the text belongs to a
key.

What is written of readable segments spells them (`spells_renderAll`). Conversely, no text that spells segments is
shorter than what is written of them, and with an empty key among them it is longer
(`length_renderAll_add_count_le`). So nothing that is written of an empty key can be read as one, and without
empty keys each segment must be read where it was written (`readable_of_spells_renderSegment`).
-/

namespace EntityDump

open Numeric Text

/-! ### What can be read -/

namespace Segment

/-- The segment is a key that is written without brackets. -/
def IsPlain : Segment → Prop
  | key name => ∀ c ∈ name.toList, Path.isSpecial c = false
  | _ => False

/-- The text of a segment can be read by itself: a key is not empty, and in brackets it does not hold a quote
before a closing bracket. An index fits 64 bits. -/
def Readable : Segment → Prop
  | key name => name ≠ "" ∧ ((key name).IsPlain ∨ ¬ ['\'', ']'] <:+: name.toList)
  | wildcard => True
  | index n => n < Nat.pow 2 64

end Segment

namespace Path

variable {segments : List Segment} {segment : Segment} {inner rest text name : List Char} {key : String}
  {begun : Bool}

/-- The text of segments can be read: that of each can, and no blank at either end belongs to a plain
key. -/
structure Readable (segments : List Segment) : Prop where
  readable : ∀ segment ∈ segments, segment.Readable
  head : ∀ name, .key name ∈ segments.head? → (Segment.key name).IsPlain →
    ∀ c ∈ name.toList.head?, isBlank c = false
  last : ∀ name, .key name ∈ segments.getLast? → (Segment.key name).IsPlain →
    ∀ c ∈ name.toList.getLast?, isBlank c = false

/-! ### Texts of segments -/

/-- The text of segments behind a text that has or has not begun. -/
def renderAll : Bool → List Segment → List Char
  | _, [] => []
  | begun, segment :: segments => renderSegment begun segment ++ renderAll true segments

/-- A plain key is written as it is, with a dot in front if the text has begun. -/
lemma renderSegment_of_isPlain (h : (Segment.key key).IsPlain) (begun : Bool) :
    renderSegment begun (.key key) = if begun then '.' :: key.toList else key.toList := by
  have hany : key.toList.any isSpecial = false := by simpa [Segment.IsPlain] using h
  rw [renderSegment, hany, if_neg Bool.false_ne_true]

/-- Any other key is written in brackets and quotes. -/
lemma renderSegment_of_not_isPlain (h : ¬ (Segment.key key).IsPlain) (begun : Bool) :
    renderSegment begun (.key key) = '[' :: ('\'' :: (key.toList ++ ['\'']) ++ [']']) := by
  have hany : key.toList.any isSpecial = true := by simpa [Segment.IsPlain] using h
  rw [renderSegment, hany, if_pos rfl]
  simp

/-- A key that is not empty has characters. -/
lemma toList_ne_nil_of_ne (h : Segment.key key ≠ .key "") : key.toList ≠ [] := by
  rintro hnil
  exact h (by rw [String.toList_eq_nil_iff.1 hnil])

/-- Something is written of every segment but the empty key. -/
lemma renderSegment_ne_nil (h : segment ≠ .key "") : renderSegment begun segment ≠ [] := by
  cases segment with
  | key key =>
    have hne := toList_ne_nil_of_ne h
    by_cases hplain : (Segment.key key).IsPlain
    · rw [renderSegment_of_isPlain hplain]
      split <;> simp [hne]
    · simp [renderSegment_of_not_isPlain hplain]
  | wildcard | index n => simp [renderSegment]

/-- Without empty keys a text has begun behind its first segment, so it is written segment by segment. -/
lemma render_eq_renderAll (h : ∀ segment ∈ segments, segment ≠ .key "") :
    render segments = renderAll false segments := by
  suffices hfold : ∀ out : List Char,
      segments.foldl (fun out segment => out ++ renderSegment (!out.isEmpty) segment) out =
        out ++ renderAll (!out.isEmpty) segments from hfold []
  induction segments with
  | nil => simp [renderAll]
  | cons segment segments ih =>
    intro out
    obtain ⟨hsegment, hsegments⟩ := List.forall_mem_cons.1 h
    have hbegun : (out ++ renderSegment (!out.isEmpty) segment).isEmpty = false := by
      simp [renderSegment_ne_nil hsegment]
    rw [List.foldl_cons, ih hsegments, renderAll, hbegun, List.append_assoc, Bool.not_false]

/-! ### Written texts spell their segments -/

/-- Before a text that spells segments, the text of a segment spells this one as well. -/
lemma spells_renderSegment (hsegment : segment.Readable) (hrest : Spells true rest segments) :
    Spells begun (renderSegment begun segment ++ rest) (segment :: segments) := by
  cases segment with
  | key key =>
    obtain ⟨hne, hcases⟩ := hsegment
    have hne : key.toList ≠ [] := by simpa using hne
    by_cases hplain : (Segment.key key).IsPlain
    · have hkey := Spells.key hne hplain hrest
      rw [String.ofList_toList] at hkey
      rw [renderSegment_of_isPlain hplain]
      cases begun with
      | false => exact hkey
      | true => exact .dot (by simp [hne]) hkey
    · have hkey := selects_key (rfl : isQuote '\'' = true) (hcases.resolve_left hplain)
      rw [String.ofList_toList] at hkey
      rw [renderSegment_of_not_isPlain hplain]
      rw [List.cons_append, List.append_assoc]
      exact .bracket hkey hrest
  | wildcard =>
    exact .bracket selects_star hrest
  | index n =>
    have hindex := selects_index (isDigitRun_toDigits n) (by rwa [digitsValue_toDigits])
    rw [digitsValue_toDigits] at hindex
    rw [renderSegment, List.append_assoc]
    exact .bracket hindex hrest

/-- What is written of readable segments spells them. -/
theorem spells_renderAll (h : ∀ segment ∈ segments, segment.Readable) :
    Spells begun (renderAll begun segments) segments := by
  induction segments generalizing begun with
  | nil => exact .nil begun
  | cons segment segments ih =>
    obtain ⟨hsegment, hsegments⟩ := List.forall_mem_cons.1 h
    exact spells_renderSegment hsegment (ih hsegments)

/-! ### Written texts are shortest -/

/-- Behind a text that has begun at most a dot is added. -/
lemma length_renderAll_true (segments : List Segment) :
    (renderAll false segments).length ≤ (renderAll true segments).length ∧
      (renderAll true segments).length ≤ (renderAll false segments).length + 1 := by
  cases segments with
  | nil => simp [renderAll]
  | cons segment segments =>
    rw [renderAll, renderAll, List.length_append, List.length_append]
    cases segment with
    | key key =>
      by_cases hplain : (Segment.key key).IsPlain
      · simp only [renderSegment_of_isPlain hplain, if_true, Bool.false_eq_true, if_false,
          List.length_cons]
        omega
      · simp [renderSegment_of_not_isPlain hplain]
    | wildcard | index n => simp [renderSegment]

/-- What is written is no longer than with a dot before every plain key but the first. -/
lemma length_render_le (segments : List Segment) :
    (render segments).length ≤ (renderAll false segments).length := by
  suffices hfold : ∀ out : List Char,
      (segments.foldl (fun out segment => out ++ renderSegment (!out.isEmpty) segment) out).length ≤
        out.length + (renderAll (!out.isEmpty) segments).length by
    have hnil := hfold []
    rwa [List.length_nil, Nat.zero_add] at hnil
  induction segments with
  | nil => simp [renderAll]
  | cons segment segments ih =>
    intro out
    have hle : (renderAll (!(out ++ renderSegment (!out.isEmpty) segment).isEmpty) segments).length ≤
        (renderAll true segments).length := by
      cases (out ++ renderSegment (!out.isEmpty) segment).isEmpty with
      | false => exact le_rfl
      | true => exact (length_renderAll_true segments).1
    have hrest := ih (out ++ renderSegment (!out.isEmpty) segment)
    rw [List.length_append] at hrest
    rw [List.foldl_cons, renderAll, List.length_append]
    omega

/-- A bracket is at least as long as what is written of its segment, and longer if that is an empty key. -/
lemma Selects.length_renderSegment_le (h : Selects inner segment) (begun : Bool) :
    (renderSegment begun segment).length + (if segment = .key "" then 1 else 0) ≤ inner.length + 2 := by
  cases h with
  | star =>
    simp only [renderSegment, List.length_append, List.length_cons, List.length_nil, reduceCtorEq,
      if_false]
    omega
  | @index before sign digits behind _ _ hdigits =>
    have hle := length_toDigits_digitsValue_le hdigits
    simp only [renderSegment, List.length_append, List.length_cons, List.length_nil, reduceCtorEq,
      if_false]
    omega
  | @key before name q =>
    have hempty : (if Segment.key (String.ofList name) = .key "" then 1 else 0) ≤ 1 := by
      split <;> simp
    by_cases hplain : (Segment.key (String.ofList name)).IsPlain
    · rw [renderSegment_of_isPlain hplain]
      split
      all_goals
        simp only [String.toList_ofList, List.length_append, List.length_cons, List.length_nil]
        omega
    · have hne : Segment.key (String.ofList name) ≠ .key "" := by
        intro hkey
        rw [hkey] at hplain
        exact hplain (by simp [Segment.IsPlain])
      rw [renderSegment_of_not_isPlain hplain, if_neg hne]
      simp

/-- A text that spells segments is at least as long as what is written of them, and longer by the number of empty
keys. -/
theorem length_renderAll_add_count_le (h : Spells begun text segments) :
    (renderAll begun segments).length + segments.count (.key "") ≤ text.length := by
  induction h with
  | nil => simp [renderAll]
  | @key name rest segments hne hplain _ ih =>
    have hkey : (Segment.key (String.ofList name)).IsPlain := by simpa [Segment.IsPlain] using hplain
    have hcount : Segment.key (String.ofList name) ≠ .key "" := by simpa using hne
    rw [renderAll, renderSegment_of_isPlain hkey, List.count_cons_of_ne hcount]
    simp only [Bool.false_eq_true, if_false, String.toList_ofList, List.length_append]
    omega
  | @bracket begun inner rest segment segments hselects _ ih =>
    have hle := hselects.length_renderSegment_le begun
    rw [renderAll, List.count_cons]
    simp only [beq_iff_eq, List.length_append, List.length_cons]
    omega
  | @dot text segments _ _ ih =>
    have hle := (length_renderAll_true segments).2
    rw [List.length_cons]
    omega

/-- An empty key is not read where it was written. -/
lemma ne_empty_of_spells_render (h : Spells false (render segments) segments) :
    ∀ segment ∈ segments, segment ≠ .key "" := by
  rintro _ hmem rfl
  have hcount := length_renderAll_add_count_le h
  have hle := length_render_le segments
  have hpos := List.count_pos_iff.2 hmem
  omega

/-! ### Reading segments where they were written -/

/-- A text that spells segments begins with a key, a bracket or a dot. -/
lemma Spells.cases_cons (h : Spells begun text (segment :: segments)) :
    (begun = false ∧ ∃ name rest, name ≠ [] ∧ (∀ c ∈ name, isSpecial c = false) ∧ text = name ++ rest ∧
      segment = .key (String.ofList name) ∧ Spells true rest segments) ∨
    (∃ inner rest, text = '[' :: (inner ++ ']' :: rest) ∧ Selects inner segment ∧
      Spells true rest segments) ∨
    begun = true ∧ ∃ rest, text = '.' :: rest ∧ Spells false rest (segment :: segments) := by
  cases h with
  | key hne hplain hrest => exact .inl ⟨rfl, _, _, hne, hplain, rfl, rfl, hrest⟩
  | bracket hselects hrest => exact .inr (.inl ⟨_, _, rfl, hselects, hrest⟩)
  | dot _ hrest => exact .inr (.inr ⟨rfl, _, rfl, hrest⟩)

/-- A text that begins with a bracket spells what the bracket selects. -/
lemma Spells.of_bracket (h : Spells begun ('[' :: text) (segment :: segments)) :
    ∃ inner rest, text = inner ++ ']' :: rest ∧ Selects inner segment ∧ Spells true rest segments := by
  rcases h.cases_cons with ⟨-, name, rest, hne, hplain, htext, -⟩ | ⟨inner, rest, htext, h⟩ | ⟨-, _, htext, -⟩
  · obtain ⟨c, name, rfl⟩ := List.exists_cons_of_ne_nil hne
    obtain ⟨rfl, -⟩ := List.cons.inj htext
    exact absurd (hplain _ List.mem_cons_self) (by decide)
  · exact ⟨inner, rest, (List.cons.inj htext).2, h⟩
  · exact absurd (List.cons.inj htext).1 (by decide)

/-- Content that selects a key is the key in quotes, perhaps behind blanks. -/
lemma Selects.of_key (h : Selects inner (.key key)) :
    ∃ before q, (∀ c ∈ before, isBlank c = true) ∧ isQuote q = true ∧
      inner = before ++ q :: (key.toList ++ [q]) ∧ ¬ [q, ']'] <:+: key.toList := by
  cases h with
  | @key before name q hbefore hq hname =>
    exact ⟨before, q, hbefore, hq, by rw [String.toList_ofList], by rwa [String.toList_ofList]⟩

/-- An index that can be selected fits 64 bits. -/
lemma Selects.lt_of_index {n : Nat} (h : Selects inner (.index n)) : n < Nat.pow 2 64 := by
  cases h with
  | index _ _ _ hlt => exact hlt

/-- Two brackets that end in the same text end at the same place. -/
lemma Closes.append_inj {inner' rest' : List Char} (h : Closes inner) (h' : Closes inner')
    (heq : inner ++ ']' :: rest = inner' ++ ']' :: rest') : inner = inner' ∧ rest = rest' := by
  have htake := takeBracket_of_closes h rest
  rw [heq, takeBracket_of_closes h' rest'] at htake
  simpa using htake.symm

/-- A plain key is read where it was written. -/
lemma spells_of_spells_plain (hne : key.toList ≠ []) (hplain : (Segment.key key).IsPlain)
    (h : Spells false (key.toList ++ rest) (.key key :: segments)) : Spells true rest segments := by
  rcases h.cases_cons with ⟨-, name, rest', -, -, htext, hkey, h⟩ | ⟨inner, rest', htext, -⟩ | ⟨hfalse, -⟩
  · have hname : key.toList = name := by
      rw [Segment.key.inj hkey, String.toList_ofList]
    rw [hname, List.append_cancel_left_eq] at htext
    rwa [htext]
  · obtain ⟨c, name, hc⟩ := List.exists_cons_of_ne_nil hne
    rw [hc] at htext
    obtain ⟨rfl, -⟩ := List.cons.inj htext
    exact absurd (hplain '[' (by simp [hc])) (by decide)
  · cases hfalse

/-- A segment other than an empty key that is read where it was written can be read. -/
theorem readable_of_spells_renderSegment (hne : segment ≠ .key "")
    (h : Spells begun (renderSegment begun segment ++ rest) (segment :: segments)) :
    segment.Readable ∧ Spells true rest segments := by
  cases segment with
  | key key =>
    have hkey : key ≠ "" := fun hkey => hne (congrArg Segment.key hkey)
    by_cases hplain : (Segment.key key).IsPlain
    · rw [renderSegment_of_isPlain hplain] at h
      refine ⟨⟨hkey, .inl hplain⟩, spells_of_spells_plain (toList_ne_nil_of_ne hne) hplain ?_⟩
      cases begun with
      | false => exact h
      | true =>
        rcases h.cases_cons with ⟨hfalse, -⟩ | ⟨inner, rest', htext, -⟩ | ⟨-, text, htext, h⟩
        · cases hfalse
        · exact absurd (List.cons.inj htext).1 (by decide)
        · rw [if_pos rfl, List.cons_append] at htext
          rwa [(List.cons.inj htext).2]
    · rw [renderSegment_of_not_isPlain hplain] at h
      obtain ⟨inner, rest', htext, hselects, hrest⟩ := h.of_bracket
      obtain ⟨before, q, hbefore, -, rfl, hclosing⟩ := hselects.of_key
      -- The bracket begins with the quote that was written, so nothing stands before it.
      cases before with
      | cons c before =>
        obtain ⟨rfl, -⟩ := List.cons.inj htext
        exact absurd (hbefore _ List.mem_cons_self) (by decide)
      | nil =>
        obtain ⟨rfl, htext⟩ := List.cons.inj htext
        obtain rfl : rest = rest' := by simpa using htext
        exact ⟨⟨hkey, .inr hclosing⟩, hrest⟩
  | wildcard =>
    obtain ⟨inner, rest', htext, hselects, hrest⟩ := h.of_bracket
    obtain ⟨-, rfl⟩ := selects_star.closes.append_inj hselects.closes htext
    exact ⟨trivial, hrest⟩
  | index n =>
    rw [renderSegment, List.append_assoc] at h
    obtain ⟨inner, rest', htext, hselects, hrest⟩ := h.of_bracket
    obtain ⟨-, rfl⟩ := (closes_of_isDigitRun (isDigitRun_toDigits n)).append_inj hselects.closes htext
    exact ⟨hselects.lt_of_index, hrest⟩

/-- Segments without empty keys that are read where they were written can be read. -/
lemma readable_of_spells_renderAll (hne : ∀ segment ∈ segments, segment ≠ .key "")
    (h : Spells begun (renderAll begun segments) segments) : ∀ segment ∈ segments, segment.Readable := by
  induction segments generalizing begun with
  | nil => simp
  | cons segment segments ih =>
    obtain ⟨hsegment, hsegments⟩ := List.forall_mem_cons.1 hne
    obtain ⟨hreadable, hrest⟩ := readable_of_spells_renderSegment hsegment h
    exact List.forall_mem_cons.2 ⟨hreadable, ih hsegments hrest⟩

/-! ### Blanks at the ends -/

/-- What is written of a segment begins with a blank only if it is a plain key that does. -/
lemma isBlank_head_renderSegment_iff (hne : segment ≠ .key "") :
    (∀ c ∈ (renderSegment false segment).head?, isBlank c = false) ↔
      ∀ name, segment = .key name → segment.IsPlain → ∀ c ∈ name.toList.head?, isBlank c = false := by
  have hopening : isBlank '[' = false := by decide
  cases segment with
  | key key =>
    by_cases hplain : (Segment.key key).IsPlain
    · simp [renderSegment_of_isPlain hplain, hplain]
    · simp [renderSegment_of_not_isPlain hplain, hplain, hopening]
  | wildcard | index n => simp [renderSegment, hopening]

/-- What is written of a segment ends in a blank only if it is a plain key that does. -/
lemma isBlank_last_renderSegment_iff (hne : segment ≠ .key "") (begun : Bool) :
    (∀ c ∈ (renderSegment begun segment).getLast?, isBlank c = false) ↔
      ∀ name, segment = .key name → segment.IsPlain → ∀ c ∈ name.toList.getLast?, isBlank c = false := by
  have hclosing : isBlank ']' = false := by decide
  cases segment with
  | key key =>
    by_cases hplain : (Segment.key key).IsPlain
    · have hlast : ('.' :: key.toList).getLast? = key.toList.getLast? :=
        List.getLast?_cons_of_ne_nil (toList_ne_nil_of_ne hne)
      cases begun <;> simp [renderSegment_of_isPlain hplain, hplain, hlast]
    · rw [renderSegment_of_not_isPlain hplain, ← List.cons_append, List.getLast?_concat]
      simp [hplain, hclosing]
  | wildcard => simp [renderSegment, hclosing]
  | index n =>
    rw [renderSegment, List.getLast?_concat]
    simp [hclosing]

/-- A text begins with a blank only if a plain key does. -/
lemma isBlank_head_renderAll_iff (hne : ∀ segment ∈ segments, segment ≠ .key "") :
    (∀ c ∈ (renderAll false segments).head?, isBlank c = false) ↔
      ∀ name, .key name ∈ segments.head? → (Segment.key name).IsPlain →
        ∀ c ∈ name.toList.head?, isBlank c = false := by
  cases segments with
  | nil => simp [renderAll]
  | cons segment segments =>
    have hsegment := hne segment List.mem_cons_self
    rw [renderAll, List.head?_append_of_ne_nil _ (renderSegment_ne_nil hsegment),
      isBlank_head_renderSegment_iff hsegment, List.head?_cons]
    constructor
    · rintro h name ⟨⟩
      exact h name rfl
    · rintro h name rfl
      exact h name rfl

/-- What is written of the last segment stands at the end. -/
lemma exists_renderAll_concat (begun : Bool) (segments : List Segment) (segment : Segment) :
    ∃ begun', renderAll begun (segments ++ [segment]) =
      renderAll begun segments ++ renderSegment begun' segment := by
  induction segments generalizing begun with
  | nil => exact ⟨begun, by simp [renderAll]⟩
  | cons first segments ih =>
    obtain ⟨begun', h⟩ := ih true
    exact ⟨begun', by rw [List.cons_append, renderAll, h, renderAll, List.append_assoc]⟩

/-- A text ends with a blank only if a plain key does. -/
lemma isBlank_last_renderAll_iff (hne : ∀ segment ∈ segments, segment ≠ .key "") :
    (∀ c ∈ (renderAll false segments).getLast?, isBlank c = false) ↔
      ∀ name, .key name ∈ segments.getLast? → (Segment.key name).IsPlain →
        ∀ c ∈ name.toList.getLast?, isBlank c = false := by
  rcases List.eq_nil_or_concat' segments with rfl | ⟨segments, segment, rfl⟩
  · simp [renderAll]
  · have hsegment := hne segment (by simp)
    obtain ⟨begun', htext⟩ := exists_renderAll_concat false segments segment
    rw [htext, List.getLast?_append_of_ne_nil _ (renderSegment_ne_nil hsegment),
      isBlank_last_renderSegment_iff hsegment, List.getLast?_concat]
    constructor
    · rintro h name ⟨⟩
      exact h name rfl
    · rintro h name rfl
      exact h name rfl

/-! ### Written paths -/

/-- Written segments are read as they are if there is nothing to trim and the text spells them. -/
lemma parse_ofSegments_eq_ok_iff :
    parse (ofSegments segments).text = .ok (ofSegments segments) ↔
      trim (render segments) = render segments ∧ Spells false (render segments) segments := by
  rw [parse_eq_ok_iff, ofSegments]
  dsimp only
  rw [String.toList_ofList, String.ofList_inj]
  constructor
  · rintro ⟨hspells, htrim⟩
    exact ⟨htrim.symm, htrim ▸ hspells⟩
  · rintro ⟨htrim, hspells⟩
    exact ⟨htrim.symm ▸ hspells, htrim.symm⟩

/-- What was written from segments reads back as the same path. -/
theorem parse_ofSegments (h : Readable segments) :
    parse (ofSegments segments).text = .ok (ofSegments segments) := by
  have hne : ∀ segment ∈ segments, segment ≠ .key "" := fun segment hmem => by
    rintro rfl
    exact (h.readable _ hmem).1 rfl
  rw [parse_ofSegments_eq_ok_iff, render_eq_renderAll hne, trim_eq_self_iff]
  exact ⟨⟨(isBlank_head_renderAll_iff hne).2 h.head, (isBlank_last_renderAll_iff hne).2 h.last⟩,
    spells_renderAll h.readable⟩

/-- Segments whose text reads back as the same path can be read. -/
theorem readable_of_parse_ofSegments
    (h : parse (ofSegments segments).text = .ok (ofSegments segments)) : Readable segments := by
  obtain ⟨htrim, hspells⟩ := parse_ofSegments_eq_ok_iff.1 h
  have hne := ne_empty_of_spells_render hspells
  rw [render_eq_renderAll hne] at htrim hspells
  obtain ⟨hhead, hlast⟩ := trim_eq_self_iff.1 htrim
  exact ⟨readable_of_spells_renderAll hne hspells, (isBlank_head_renderAll_iff hne).1 hhead,
    (isBlank_last_renderAll_iff hne).1 hlast⟩

/-- The text of segments reads back as the same path exactly if it can be read. -/
theorem parse_ofSegments_iff (segments : List Segment) :
    parse (ofSegments segments).text = .ok (ofSegments segments) ↔ Readable segments :=
  ⟨readable_of_parse_ofSegments, parse_ofSegments⟩

end Path

end EntityDump
