import EntityDump.Filter.Compare
import EntityDump.Proofs.Numeric.Digits
import EntityDump.Proofs.Numeric.Truncation
import EntityDump.Proofs.Text.Trim
/-!
# The order of values

Two values are ordered as numbers if both are numbers, else as instants if both name one. The two rules fit
together, because a value that is a number and names an instant is truncated to it (`truncate_eq_instant`): a date
is no number (`readFloat?_of_leadsDate`), and the calendar ends before whole numbers are rounded. So the order is
consistent over any mix of values (`order?_consistent`).
-/

namespace EntityDump

open Text Numeric

/-! ### Dates are no numbers -/

namespace Calendar

variable {s rest : List Char} {least most : Nat}

/-- The text begins with digits, with or without a sign, and a dash. -/
def LeadsDate (s : List Char) : Prop :=
  ∃ sign digits rest, (sign = [] ∨ sign = ['+'] ∨ sign = ['-']) ∧ isDigitRun digits = true ∧
    s = sign ++ (digits ++ '-' :: rest)

/-- Digits that are taken stand at the beginning of the text. -/
lemma exists_of_takeDigits? {n : Nat} (h : takeDigits? least most s = some (n, rest)) (hleast : 0 < least) :
    ∃ digits, isDigitRun digits = true ∧ s = digits ++ rest := by
  unfold takeDigits? at h
  dsimp only at h
  split at h
  · contradiction
  · next hlength =>
    obtain ⟨-, rfl⟩ := Prod.mk.inj (Option.some.inj h)
    have hprefix : (s.take most).takeWhile isAsciiDigit <+: s :=
      (List.takeWhile_prefix _).trans (List.take_prefix most s)
    refine ⟨(s.take most).takeWhile isAsciiDigit, isDigitRun_iff.2 ⟨?_, fun c hc => ?_⟩, ?_⟩
    · exact List.ne_nil_of_length_pos (by omega)
    · exact List.mem_takeWhile_imp hc
    · conv_lhs => rw [← List.take_append_drop ((s.take most).takeWhile isAsciiDigit).length s,
        ← List.prefix_iff_eq_take.1 hprefix]

/-- A character that is taken stands at the beginning of the text. -/
lemma eq_cons_of_takeChar? {c : Char} (h : takeChar? c s = some rest) : s = c :: rest := by
  unfold takeChar? at h
  split at h
  · split at h
    · next heq => rw [heq, Option.some.inj h]
    · contradiction
  · contradiction

/-- A date with time and offset begins with its year and a dash. -/
lemma leadsDate_of_readStrict? {t : Int} (h : readStrict? s = some t) : LeadsDate s := by
  obtain ⟨⟨year, behind⟩, hyear, h⟩ := Option.bind_eq_some_iff.1 h
  obtain ⟨rest, hdash, -⟩ := Option.bind_eq_some_iff.1 h
  obtain ⟨digits, hdigits, hs⟩ := exists_of_takeDigits? hyear (by decide)
  rw [eq_cons_of_takeChar? hdash] at hs
  exact ⟨[], digits, rest, .inl rfl, hdigits, hs⟩

/-- A year is digits with or without a sign. -/
lemma exists_of_takeYear? {year : Int} (hblank : trimStart s = s) (h : takeYear? s = some (year, rest)) :
    ∃ sign digits, (sign = [] ∨ sign = ['+'] ∨ sign = ['-']) ∧ isDigitRun digits = true ∧
      s = sign ++ (digits ++ rest) := by
  unfold takeYear? at h
  dsimp only at h
  rw [hblank] at h
  split at h
  · next behind =>
    obtain ⟨⟨n, rest'⟩, hdigits, heq⟩ := Option.map_eq_some_iff.1 h
    obtain ⟨-, rfl⟩ := Prod.mk.inj heq
    obtain ⟨digits, hrun, rfl⟩ := exists_of_takeDigits? hdigits (by decide)
    exact ⟨['-'], digits, .inr (.inr rfl), hrun, rfl⟩
  · next behind =>
    obtain ⟨⟨n, rest'⟩, hdigits, heq⟩ := Option.map_eq_some_iff.1 h
    obtain ⟨-, rfl⟩ := Prod.mk.inj heq
    obtain ⟨digits, hrun, rfl⟩ := exists_of_takeDigits? hdigits (by decide)
    exact ⟨['+'], digits, .inr (.inl rfl), hrun, rfl⟩
  · obtain ⟨⟨n, rest'⟩, hdigits, heq⟩ := Option.map_eq_some_iff.1 h
    obtain ⟨-, rfl⟩ := Prod.mk.inj heq
    obtain ⟨digits, hrun, hs⟩ := exists_of_takeDigits? hdigits (by decide)
    exact ⟨[], digits, .inl rfl, hrun, hs⟩

/-- A date begins with its year and a dash. -/
lemma leadsDate_of_takeDate? {date : Int × Nat × Nat} (hblank : trimStart s = s)
    (h : takeDate? s = some (date, rest)) : LeadsDate s := by
  obtain ⟨⟨year, behind⟩, hyear, h⟩ := Option.bind_eq_some_iff.1 h
  obtain ⟨behind', hdash, -⟩ := Option.bind_eq_some_iff.1 h
  obtain ⟨sign, digits, hsign, hdigits, hs⟩ := exists_of_takeYear? hblank hyear
  rw [eq_cons_of_takeChar? hdash] at hs
  exact ⟨sign, digits, behind', hsign, hdigits, hs⟩

/-- Whatever its form, an instant is read from a text that begins with a year and a dash. -/
lemma leadsDate_of_read? {t : Int} (hblank : trimStart s = s) (h : read? s = some t) : LeadsDate s := by
  unfold read? at h
  cases hstrict : readStrict? s with
  | some t' => exact leadsDate_of_readStrict? hstrict
  | none =>
    cases hdate : takeDate? s with
    | some date => exact leadsDate_of_takeDate? hblank hdate
    | none =>
      rw [hstrict] at h
      simp [readDateTime?, readDate?, hdate] at h

end Calendar

namespace Numeric

variable {s : List Char}

/-- Digits and a dash behind them are no number without sign. -/
lemma readMagnitude?_digits_dash {digits : List Char} (h : isDigitRun digits = true) (rest : List Char) :
    readMagnitude? (digits ++ '-' :: rest) = none := by
  obtain ⟨hne, hdigits⟩ := isDigitRun_iff.1 h
  have hdash : isAsciiDigit '-' = false := by decide
  have hwhole : (digits ++ '-' :: rest).takeWhile isAsciiDigit = digits := by
    rw [List.takeWhile_append_of_pos hdigits, List.takeWhile_cons_of_neg (by simp [hdash]), List.append_nil]
  have hbehind : (digits ++ '-' :: rest).dropWhile isAsciiDigit = '-' :: rest := by
    rw [List.dropWhile_append_of_pos hdigits, List.dropWhile_cons_of_neg (by simp [hdash])]
  unfold readMagnitude?
  dsimp only
  rw [hwhole, hbehind]
  simp [readExponent?]

/-- Digits have no upper case. -/
lemma lowerAscii_of_isAsciiDigit {c : Char} (h : isAsciiDigit c = true) : lowerAscii c = c := by
  have hrange : 48 ≤ c.toNat ∧ c.toNat ≤ 57 := by
    rw [isAsciiDigit, Bool.and_eq_true, decide_eq_true_eq, decide_eq_true_eq] at h
    exact h
  have hcapital : ¬ 'A' ≤ c := fun hle => by
    have hle : 65 ≤ c.toNat := hle
    omega
  rw [lowerAscii, decide_eq_false hcapital, Bool.false_and, if_neg Bool.false_ne_true]

/-- The words for infinity and not-a-number do not begin with a digit. -/
lemma readWordFloat?_of_isAsciiDigit {c : Char} (h : isAsciiDigit c = true) (rest : List Char) :
    readWordFloat? (c :: rest) = none := by
  have hne : ∀ d, isAsciiDigit d = false → ∀ word : String, word.toList.head? = some d →
      String.ofList ((c :: rest).map lowerAscii) ≠ word := by
    rintro d hd word hhead rfl
    rw [String.toList_ofList, List.map_cons, lowerAscii_of_isAsciiDigit h] at hhead
    rw [Option.some.inj hhead, hd] at h
    contradiction
  unfold readWordFloat?
  dsimp only
  simp only [hne 'i' rfl "inf" rfl, hne 'i' rfl "infinity" rfl, hne 'n' rfl "nan" rfl, decide_false,
    Bool.or_false, Bool.false_eq_true, if_false]

/-- A text that begins as a date is no number. -/
theorem readFloat?_of_leadsDate (h : Calendar.LeadsDate s) : readFloat? s = none := by
  obtain ⟨sign, digits, rest, hsign, hrun, rfl⟩ := h
  obtain ⟨hne, hdigits⟩ := isDigitRun_iff.1 hrun
  have hmagnitude := readMagnitude?_digits_dash hrun rest
  obtain ⟨c, digits, rfl⟩ := List.exists_cons_of_ne_nil hne
  rw [List.cons_append] at hmagnitude
  have hdigit := hdigits c List.mem_cons_self
  have hword := readWordFloat?_of_isAsciiDigit hdigit (digits ++ '-' :: rest)
  unfold readFloat?
  rcases hsign with rfl | rfl | rfl
  · -- A digit is neither of the signs.
    rw [List.nil_append, List.cons_append]
    split
    next negative unsigned hsplit =>
    split at hsplit
    · next heq =>
      obtain rfl := (List.cons.inj heq).1
      cases hdigit
    · next heq =>
      obtain rfl := (List.cons.inj heq).1
      cases hdigit
    · obtain ⟨rfl, rfl⟩ := Prod.mk.inj hsplit
      rw [hmagnitude]
      simpa using hword
  · simp [hmagnitude, hword]
  · simp [hmagnitude, hword]

end Numeric

/-! ### Readings of a value -/

namespace Compare

variable {a b c : Json} {x y : Float} {s t : Int} {o : Ordering}

/-- What counts as a number is finite. -/
lemma isFinite_of_asNumber? (h : asNumber? a = some x) : isFinite x = true :=
  (Option.filter_eq_some_iff.1 h).2

/-- A number counts as itself while it is finite. -/
lemma asNumber?_number {n : Json.Number} (h : isFinite n.toFloat = true) :
    asNumber? (.number n) = some n.toFloat := by
  show Option.filter isFinite (some n.toFloat) = some n.toFloat
  rw [Option.filter_some, h, if_pos rfl]

/-- No text is both a number and a date. -/
lemma asNumber?_eq_none_of_date {text : String} (h : asInstant? (.string text) = some t) :
    asNumber? (.string text) = none := by
  have hblank : trimStart (trim text.toList) = trim text.toList :=
    trimStart_eq_self (isBlank_head_trim text.toList)
  have hnumber : readFloat? (trim text.toList) = none :=
    readFloat?_of_leadsDate (Calendar.leadsDate_of_read? hblank h)
  show (readFloat? (trim text.toList)).filter isFinite = none
  rw [hnumber]
  rfl

/-- Milliseconds that name an instant are this instant, within the range of exact numbers. -/
lemma of_ofMillis? {n : Int} (h : Calendar.ofMillis? n = some t) : n = t ∧ n.natAbs ≤ 2 ^ 53 := by
  unfold Calendar.ofMillis? at h
  split at h
  · next hrange =>
    rw [Bool.and_eq_true, decide_eq_true_eq, decide_eq_true_eq, Calendar.minInstant, Calendar.maxInstant]
      at hrange
    exact ⟨Option.some.inj h, by omega⟩
  · contradiction

/-- The instant of a number is the number without its fraction. -/
lemma exists_of_instant {n : Json.Number} (h : asInstant? (.number n) = some t) :
    ∃ d, Dyadic.ofFloat? n.toFloat = some d ∧ d.truncate = t := by
  obtain ⟨millis, hmillis, hrange⟩ := Option.bind_eq_some_iff.1 h
  obtain ⟨rfl, hsmall⟩ := of_ofMillis? hrange
  cases n with
  | int n =>
    obtain rfl := Option.some.inj hmillis
    have hfinite : isFinite (Float.ofInt n) = true := isFinite_ofInt (by omega)
    obtain ⟨d, hd⟩ := Option.isSome_iff_exists.1 hfinite
    exact ⟨d, hd, truncate_ofInt hsmall hd⟩
  | float x => exact Option.map_eq_some_iff.1 hmillis

/-- A value that is a number and names an instant is the instant when it loses its fraction. -/
lemma truncate_eq_instant {d : Numeric.Dyadic} (hx : asNumber? a = some x) (ht : asInstant? a = some t)
    (hd : Dyadic.ofFloat? x = some d) : d.truncate = t := by
  cases a with
  | number n =>
    obtain ⟨d', hd', htruncate⟩ := exists_of_instant ht
    have hfilter : Option.filter isFinite (some n.toFloat) = some x := hx
    rw [Option.some.inj (Option.filter_eq_some_iff.1 hfilter).1, hd] at hd'
    rwa [Option.some.inj hd']
  | string text =>
    rw [asNumber?_eq_none_of_date ht] at hx
    contradiction
  | null => contradiction
  | bool => contradiction
  | array => contradiction
  | object => contradiction

/-- Numbers that name instants are in the order of these. -/
lemma instant_le_of_rank_le (hx : asNumber? a = some x) (hy : asNumber? b = some y)
    (hs : asInstant? a = some s) (ht : asInstant? b = some t) (h : rank x ≤ rank y) : s ≤ t := by
  obtain ⟨d, hd⟩ := Option.isSome_iff_exists.1 (isFinite_of_asNumber? hx)
  obtain ⟨d', hd'⟩ := Option.isSome_iff_exists.1 (isFinite_of_asNumber? hy)
  rw [← truncate_eq_instant hx hs hd, ← truncate_eq_instant hy ht hd']
  exact truncate_le_truncate hd hd' h

/-! ### The order -/

/-- The order of two values: numbers have the order of their places, and where one is no number instants have
their own. -/
inductive Orders (a b : Json) : Ordering → Prop where
  | numbers {x y : Float} (hx : asNumber? a = some x) (hy : asNumber? b = some y) :
    Orders a b (compare (rank x) (rank y))
  | instants {s t : Int} (hnumber : asNumber? a = none ∨ asNumber? b = none) (hs : asInstant? a = some s)
    (ht : asInstant? b = some t) : Orders a b (compare s t)

/-- Finite numbers are ordered by their places. -/
lemma floatOrder_eq (hx : isFinite x = true) (hy : isFinite y = true) :
    floatOrder x y = compare (rank x) (rank y) := by
  have hlt := lt_iff_rank_lt (isNaN_of_isFinite hx) (isNaN_of_isFinite hy)
  have hgt := lt_iff_rank_lt (isNaN_of_isFinite hy) (isNaN_of_isFinite hx)
  rw [floatOrder]
  rcases lt_trichotomy (rank x) (rank y) with h | h | h
  · rw [if_pos (hlt.2 h), compare_lt_iff_lt.2 h]
  · rw [if_neg (mt hlt.1 h.not_lt), if_neg (mt hgt.1 h.not_gt), compare_eq_iff_eq.2 h]
  · rw [if_neg (mt hlt.1 h.not_gt), if_pos (hgt.2 h), compare_gt_iff_gt.2 h]

/-- The order that is found is the one that the two values have. -/
lemma order?_eq_some_iff : order? a b = some o ↔ Orders a b o := by
  constructor
  · intro h
    unfold order? at h
    split at h
    · next x y hx hy =>
      rw [floatOrder_eq (isFinite_of_asNumber? hx) (isFinite_of_asNumber? hy)] at h
      exact Option.some.inj h ▸ .numbers hx hy
    · next hnumber =>
      split at h
      · next s t hs ht =>
        -- Two numbers would have been compared as such.
        refine Option.some.inj h ▸ .instants ?_ hs ht
        by_contra hboth
        rw [not_or, ← Ne, ← Ne, Option.ne_none_iff_exists', Option.ne_none_iff_exists'] at hboth
        obtain ⟨⟨x, hx⟩, y, hy⟩ := hboth
        exact hnumber x y hx hy
      · contradiction
  · intro h
    unfold order?
    cases h with
    | @numbers x y hx hy =>
      rw [hx, hy]
      dsimp only
      rw [floatOrder_eq (isFinite_of_asNumber? hx) (isFinite_of_asNumber? hy)]
    | instants hnumber hs ht =>
      rw [hs, ht]
      split
      · next x y hx hy =>
        rw [hx, hy] at hnumber
        rcases hnumber with hnumber | hnumber <;> contradiction
      · rfl

/-- Values in the other order are ordered the other way around. -/
lemma Orders.swap (h : Orders a b o) : Orders b a o.swap := by
  cases h with
  | numbers hx hy =>
    rw [← Std.OrientedOrd.eq_swap]
    exact .numbers hy hx
  | instants hnumber hs ht =>
    rw [← Std.OrientedOrd.eq_swap]
    exact .instants hnumber.symm ht hs

/-- A value is neither before nor behind itself. -/
lemma Orders.eq_of_self (h : Orders a a o) : o = .eq := by
  cases h with
  | numbers hx hy =>
    obtain rfl := Option.some.inj (hx.symm.trans hy)
    exact compare_eq_iff_eq.2 rfl
  | instants hnumber hs ht =>
    obtain rfl := Option.some.inj (hs.symm.trans ht)
    exact compare_eq_iff_eq.2 rfl

/-- What comes before a value comes before it as a number, or as an instant where one of them is no number. -/
lemma Orders.cases_lt (h : Orders a b .lt) :
    (∃ x y, asNumber? a = some x ∧ asNumber? b = some y ∧ rank x < rank y) ∨
      (asNumber? a = none ∨ asNumber? b = none) ∧
        ∃ s t, asInstant? a = some s ∧ asInstant? b = some t ∧ s < t := by
  generalize ho : Ordering.lt = o at h
  cases h with
  | numbers hx hy => exact .inl ⟨_, _, hx, hy, compare_lt_iff_lt.1 ho.symm⟩
  | instants hnumber hs ht => exact .inr ⟨hnumber, _, _, hs, ht, compare_lt_iff_lt.1 ho.symm⟩

/-- What comes before a value comes before all that come behind it, if it can be compared with them. -/
lemma Orders.trans (hab : Orders a b .lt) (hbc : Orders b c .lt) (hac : Orders a c o) : o = .lt := by
  rcases hab.cases_lt with ⟨x, y, hx, hy, hxy⟩ | ⟨hab, s, t, hs, ht, hst⟩
  · rcases hbc.cases_lt with ⟨y', z, hy', hz, hyz⟩ | ⟨hbc, t, u, ht, hu, htu⟩
    · obtain rfl := Option.some.inj (hy.symm.trans hy')
      cases hac with
      | @numbers x' z' hx' hz' =>
        obtain rfl := Option.some.inj (hx.symm.trans hx')
        obtain rfl := Option.some.inj (hz.symm.trans hz')
        exact compare_lt_iff_lt.2 (hxy.trans hyz)
      | instants hnumber => simp [hx, hz] at hnumber
    · -- The last value is no number, so the first one is compared with it as an instant.
      have hz : asNumber? c = none := by simpa [hy] using hbc
      cases hac with
      | numbers hx' hz' => simp [hz] at hz'
      | @instants s u' _ hs hu' =>
        obtain rfl := Option.some.inj (hu.symm.trans hu')
        exact compare_lt_iff_lt.2 ((instant_le_of_rank_le hx hy hs ht hxy.le).trans_lt htu)
  · rcases hbc.cases_lt with ⟨y, z, hy, hz, hyz⟩ | ⟨hbc, t', u, ht', hu, htu⟩
    · have hx : asNumber? a = none := by simpa [hy] using hab
      cases hac with
      | numbers hx' hz' => simp [hx] at hx'
      | @instants s' u _ hs' hu =>
        obtain rfl := Option.some.inj (hs.symm.trans hs')
        exact compare_lt_iff_lt.2 (hst.trans_le (instant_le_of_rank_le hy hz ht hu hyz.le))
    · obtain rfl := Option.some.inj (ht.symm.trans ht')
      cases hac with
      | @numbers x z hx hz =>
        -- As numbers the outer two are ordered like their instants, which the middle one divides.
        refine compare_lt_iff_lt.2 (not_le.1 fun hle => ?_)
        exact ((instant_le_of_rank_le hz hx hu hs hle).trans_lt (hst.trans htu)).false
      | @instants s' u' _ hs' hu' =>
        obtain rfl := Option.some.inj (hs.symm.trans hs')
        obtain rfl := Option.some.inj (hu.symm.trans hu')
        exact compare_lt_iff_lt.2 (hst.trans htu)

/-- Exchanging two values turns their order around. -/
theorem order?_swap (a b : Json) : order? b a = (order? a b).map Ordering.swap := by
  refine Option.ext fun o => ?_
  rw [Option.map_eq_some_iff, order?_eq_some_iff]
  constructor
  · intro h
    exact ⟨o.swap, order?_eq_some_iff.2 h.swap, Ordering.swap_swap⟩
  · rintro ⟨o', h, rfl⟩
    exact (order?_eq_some_iff.1 h).swap

/-- A number that names an instant is finite. -/
lemma exists_asNumber?_of_instant {n : Json.Number} (h : asInstant? (.number n) = some t) :
    ∃ x, asNumber? (.number n) = some x := by
  obtain ⟨d, hd, -⟩ := exists_of_instant h
  exact ⟨_, asNumber?_number (by rw [isFinite, hd]; rfl)⟩

/-- Numbers are ordered against each other as their instants are, up to fractions. -/
lemma order?_number_number {m n : Json.Number} (hs : asInstant? (.number m) = some s)
    (ht : asInstant? (.number n) = some t) :
    (s < t → order? (.number m) (.number n) = some .lt) ∧
      (order? (.number m) (.number n) = some .lt → s ≤ t) := by
  obtain ⟨x, hx⟩ := exists_asNumber?_of_instant hs
  obtain ⟨y, hy⟩ := exists_asNumber?_of_instant ht
  rw [order?_eq_some_iff.2 (.numbers hx hy), Option.some.injEq, compare_lt_iff_lt]
  constructor
  · intro hlt
    refine not_le.1 fun hle => ?_
    exact (hlt.trans_le (instant_le_of_rank_le hy hx ht hs hle)).false
  · intro hlt
    exact instant_le_of_rank_le hx hy hs ht hlt.le

/-- The order of values is consistent. Exchanging two values turns their order around; no value is before or behind
itself; and what is before a value is before all that are behind it, if it can be compared with them. This holds
over any mix of numbers, texts of numbers, dates and numbers of milliseconds: no text is both a number and a date,
and numbers are ordered against dates by their whole milliseconds, as they are against each other. -/
theorem order?_consistent :
    (∀ a b, order? b a = (order? a b).map Ordering.swap) ∧
    (∀ a, order? a a ≠ some .lt ∧ order? a a ≠ some .gt) ∧
    (∀ a b c, order? a b = some .lt → order? b c = some .lt → (order? a c).isSome = true →
      order? a c = some .lt) ∧
    (∀ text, asNumber? (.string text) = none ∨ asInstant? (.string text) = none) ∧
    ∀ m n text i j t, asInstant? (.number m) = some i → asInstant? (.number n) = some j →
      asInstant? (.string text) = some t →
      order? (.number m) (.string text) = some (compare i t) ∧
      (i < j → order? (.number m) (.number n) = some .lt) ∧
      (order? (.number m) (.number n) = some .lt → i ≤ j) := by
  refine ⟨order?_swap, fun a => ?_, fun a b c hab hbc hac => ?_, fun text => ?_, ?_⟩
  · constructor
    · intro h
      cases (order?_eq_some_iff.1 h).eq_of_self
    · intro h
      cases (order?_eq_some_iff.1 h).eq_of_self
  · obtain ⟨o, ho⟩ := Option.isSome_iff_exists.1 hac
    rw [ho, (order?_eq_some_iff.1 hab).trans (order?_eq_some_iff.1 hbc) (order?_eq_some_iff.1 ho)]
  · cases h : asInstant? (.string text) with
    | none => exact .inr rfl
    | some t => exact .inl (asNumber?_eq_none_of_date h)
  · intro m n text i j t hi hj ht
    have hdate : order? (.number m) (.string text) = some (compare i t) :=
      order?_eq_some_iff.2 (.instants (.inr (asNumber?_eq_none_of_date ht)) hi ht)
    exact ⟨hdate, order?_number_number hi hj⟩

/-- A date, a whole number and a number with a fraction: the date is compared with either number by its instant, and
the numbers with each other as numbers. -/
theorem order?_consistent_of_mixed :
    order? (.string "1970-01-01") (.number (.int 1)) = some .lt ∧
    order? (.number (.int 1)) (.number (.float 1.5)) = some .lt ∧
    order? (.string "1970-01-01") (.number (.float 1.5)) = some .lt ∧
    order? (.number (.float 1.5)) (.string "1970-01-01") = some .gt := by
  have hfirst : order? (.string "1970-01-01") (.number (.int 1)) = some .lt := by decide +kernel
  have hsecond : order? (.number (.int 1)) (.number (.float 1.5)) = some .lt := by decide +kernel
  have hfraction : asInstant? (.number (.float 1.5)) = some 1 := by decide +kernel
  have hdate : asInstant? (.string "1970-01-01") = some 0 := by decide +kernel
  obtain ⟨-, -, htrans, -, hinstants⟩ := order?_consistent
  exact ⟨hfirst, hsecond, htrans _ _ _ hfirst hsecond (by decide +kernel),
    (hinstants _ _ _ _ _ _ hfraction hfraction hdate).1⟩

end Compare

end EntityDump
