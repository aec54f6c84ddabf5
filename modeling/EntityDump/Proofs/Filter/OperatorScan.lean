import EntityDump.Proofs.Filter.Mask
import EntityDump.Proofs.Text.Split
/-!
# Looking for the operator

The operator of a condition is looked for in what its text shows outside brackets. Behind a piece without blanks
and signs, the operators stand where they stand in the rest (`Operator.find?_append`), so a path that shows no such
character leaves the operator to what comes behind it (`Condition.parseChars?_of_leads`).
-/

namespace EntityDump

open Text

/-! ### Where operators are found -/

/-- Each operator that is no word ends with one of these. -/
def signs : List Char :=
  ['=', '<', '>']

variable {word front tail : List Char} {o : Operator}

/-- A word with a sign as its first or second character does not begin before a blank. -/
lemma find?_append_of_sign {before : List Char} {sign : Char} (hbefore : before.length ≤ 1)
    (hblank : sign ≠ ' ') (hfront : sign ∉ front) (tail : List Char) :
    find? (before ++ [sign]) (front ++ ' ' :: tail) =
      (find? (before ++ [sign]) (' ' :: tail)).map (· + front.length) := by
  induction front with
  | nil => simp
  | cons c front ih =>
    obtain ⟨hc, hfront⟩ := not_or.1 (mt List.mem_cons.2 hfront)
    have habsent : ¬ before ++ [sign] <+: c :: (front ++ ' ' :: tail) := by
      rintro ⟨rest, h⟩
      match before, hbefore with
      | [], _ => exact hc (List.cons.inj h).1
      | [_], _ =>
        have hsecond := (List.cons.inj h).2
        cases front with
        | nil => exact hblank (List.cons.inj hsecond).1
        | cons d front => exact hfront (by simp [(List.cons.inj hsecond).1])
    rw [List.cons_append, find?_cons_of_not_isPrefix habsent, ih hfront, Option.map_map]
    rfl

/-- A word does not stand where no blank is before it. -/
lemma findWord?_cons {before : Option Char} (h : before.any isBlank = false) (position : Nat) (c : Char)
    (s : List Char) :
    findWord? word position before (c :: s) = findWord? word (position + 1) (some c) s := by
  simp [findWord?, h]

/-- Positions are counted from where the search begins. -/
lemma findWord?_add (position n : Nat) (before : Option Char) (s : List Char) :
    findWord? word (position + n) before s = (findWord? word position before s).map (· + n) := by
  induction s generalizing position before with
  | nil => rfl
  | cons c s ih =>
    rw [findWord?, findWord?]
    split
    · rfl
    · rw [Nat.add_right_comm, ih]

/-- A word is not found in front of the first blank, as it has to stand behind one. -/
lemma findWord?_append (hfront : ∀ c ∈ front, isBlank c = false) {before : Option Char}
    (hbefore : before.any isBlank = false) (position : Nat) (tail : List Char) :
    findWord? word position before (front ++ ' ' :: tail) =
      findWord? word (position + front.length) none (' ' :: tail) := by
  induction front generalizing before position with
  | nil => rw [List.nil_append, findWord?_cons hbefore, findWord?_cons rfl, List.length_nil, Nat.add_zero]
  | cons c front ih =>
    obtain ⟨hc, hfront⟩ := List.forall_mem_cons.1 hfront
    rw [List.cons_append, findWord?_cons hbefore, ih hfront (by simpa using hc), List.length_cons, Nat.add_assoc,
      Nat.add_comm 1]

namespace Operator

/-- An operator that is no word ends in a sign, with one character before it at most. -/
lemma exists_symbol_of_not_isWord (h : o.isWord = false) :
    ∃ before sign, o.symbol.toList = before ++ [sign] ∧ before.length ≤ 1 ∧ sign ∈ signs := by
  cases o with
  | greaterEq => exact ⟨['>'], '=', rfl, by decide, by decide⟩
  | lessEq => exact ⟨['<'], '=', rfl, by decide, by decide⟩
  | notEqual => exact ⟨['!'], '=', rfl, by decide, by decide⟩
  | equal => exact ⟨[], '=', rfl, by decide, by decide⟩
  | greater => exact ⟨[], '>', rfl, by decide, by decide⟩
  | less => exact ⟨[], '<', rfl, by decide, by decide⟩
  | contains | startsWith | endsWith | exist => cases h

/-- Behind a text without blanks and signs, operators stand where they stand in the rest. -/
lemma find?_append (o : Operator) (hfront : ∀ c ∈ front, isBlank c = false ∧ c ∉ signs)
    (tail : List Char) :
    o.find? (front ++ ' ' :: tail) = (o.find? (' ' :: tail)).map (· + front.length) := by
  rw [find?, find?]
  split
  · rw [findWord?_append (fun c hc => (hfront c hc).1) rfl, findWord?_add]
  · next hword =>
    obtain ⟨before, sign, hsymbol, hbefore, hsign⟩ :=
      exists_symbol_of_not_isWord (o := o) (by simpa using hword)
    have hblank : sign ≠ ' ' := by
      rintro rfl
      exact absurd hsign (by decide)
    rw [hsymbol, find?_append_of_sign hbefore hblank fun hmem => (hfront sign hmem).2 hsign]

/-- The operator is the first one to be found in a text, right behind the first character. -/
structure Leads (o : Operator) (shown : List Char) : Prop where
  first : (all.find? fun other => (other.find? shown).isSome) = some o
  position : o.find? shown = some 1

instance (o : Operator) (shown : List Char) : Decidable (o.Leads shown) :=
  decidable_of_iff _ ⟨fun h => ⟨h.1, h.2⟩, fun h => And.intro h.first h.position⟩

end Operator

/-! ### Conditions around an operator -/

/-- A text that has a blank between other characters has it still when it is trimmed. -/
lemma any_isBlank_trim {name : List Char} {c d : Char} (hname : ∀ b ∈ name.head?, isBlank b = false)
    (hne : name ≠ []) (hc : isBlank c = true) (hd : isBlank d = false) (rest : List Char) :
    (trim (name ++ c :: d :: rest)).any isBlank = true := by
  have hhead : ∀ b ∈ (name ++ c :: d :: rest).head?, isBlank b = false := by
    rwa [List.head?_append_of_ne_nil _ hne]
  obtain ⟨behind, hbehind, hsplit⟩ := exists_trim_of_head? hhead
  have hcuts : (name ++ [c]) ++ (d :: rest) = trim (name ++ c :: d :: rest) ++ behind := by
    simpa using hsplit
  rcases List.append_eq_append_iff.1 hcuts with ⟨cut, hcut, -⟩ | ⟨cut, -, hcut⟩
  · simp [hcut, hc]
  · -- All that is cut off behind would be blank.
    have hblank := hbehind d (by simp [hcut])
    rw [hd] at hblank
    contradiction

namespace Condition

variable {twoSided : Bool} {name path behind shown : List Char} {side : Side} {p : Path}

/-- A condition is read from a name, an operator and a literal if the operator is found behind the name, and those
that are looked for before it at the very beginning, further back or not at all. -/
theorem parseChars?_of_find?
    (hscan : operatorScan (name ++ ' ' :: (o.symbol.toList ++ behind)) = shown)
    (hposition : o.find? shown = some (name.length + 1))
    (hothers : ∃ before after, Operator.all = before ++ o :: after ∧
      ∀ other ∈ before, ∀ i ∈ other.find? shown, i = 0 ∨ name.length + 2 ≤ i)
    (hne : name ≠ []) (hname : ∀ c ∈ name, isBlank c = false)
    (hlast : ∀ c ∈ (o.symbol.toList ++ behind).getLast?, isBlank c = false)
    (hbehind : (trim behind).isEmpty = (o == .exist))
    (hside : (if twoSided then splitSide name else (.left, name)) = (side, path))
    (hpath : Path.parse (String.ofList path) = .ok p) :
    parseChars? twoSided (name ++ ' ' :: (o.symbol.toList ++ behind)) =
      some ⟨side, p, o, if o == .exist then .null else readLiteral (trim behind)⟩ := by
  obtain ⟨d, symbol, hsymbol, hd⟩ : ∃ d symbol, o.symbol.toList = d :: symbol ∧ isBlank d = false := by
    cases o <;> exact ⟨_, _, rfl, by decide⟩
  have htrim : trim (name ++ ' ' :: (o.symbol.toList ++ behind)) =
      name ++ ' ' :: (o.symbol.toList ++ behind) := by
    refine trim_eq_self (fun c hc => ?_) fun c hc => ?_
    · rw [List.head?_append_of_ne_nil _ hne] at hc
      exact hname c (List.mem_of_head? hc)
    · rw [List.getLast?_append_of_ne_nil _ (List.cons_ne_nil _ _),
        List.getLast?_cons_of_ne_nil (by simp [hsymbol])] at hc
      exact hlast c hc
  obtain ⟨before, after, hall, hothers⟩ := hothers
  -- An operator that is looked for earlier gives way if nothing stands before it, or a blank does.
  have hnone : ∀ other ∈ before,
      parseAround? twoSided (name ++ ' ' :: (o.symbol.toList ++ behind)) other = none := by
    intro other hother
    rw [parseAround?, Operator.split?, hscan]
    cases hfound : other.find? shown with
    | none => rfl
    | some i =>
      rcases hothers other hother i hfound with rfl | hi
      · -- Nothing stands before it.
        rfl
      · -- What stands before it holds the blank behind the name.
        obtain ⟨n, rfl⟩ := Nat.exists_eq_add_of_le hi
        have htake : (name ++ ' ' :: (o.symbol.toList ++ behind)).take (name.length + 2 + n) =
            name ++ ' ' :: d :: (symbol ++ behind).take n := by
          rw [Nat.add_assoc, List.take_length_add_append, hsymbol, List.cons_append, Nat.add_comm,
            List.take_succ_cons, List.take_succ_cons]
        have hblank := any_isBlank_trim (c := ' ') (fun c hc => hname c (List.mem_of_head? hc)) hne (by decide) hd
          ((symbol ++ behind).take n)
        dsimp only [Option.map_some]
        rw [htake, hblank, Bool.or_true, if_pos rfl]
  have hfound : parseAround? twoSided (name ++ ' ' :: (o.symbol.toList ++ behind)) o =
      some (some ⟨side, p, o, if o == .exist then .null else readLiteral (trim behind)⟩) := by
    have hsplit : o.split? (name ++ ' ' :: (o.symbol.toList ++ behind)) =
        some (name ++ [' '], behind) := by
      have htext : name ++ ' ' :: (o.symbol.toList ++ behind) = (name ++ [' ']) ++ o.symbol.toList ++ behind := by
        simp
      have hlength : (name ++ [' ']).length = name.length + 1 := by simp
      rw [Operator.split?, hscan, hposition, Option.map_some, htext,
        List.drop_left' (by rw [List.length_append, hlength]), List.append_assoc, List.take_left' hlength]
    have hlhs : trim (name ++ [' ']) = name := by
      rw [trim_concat_of_isBlank (by decide), trim_of_forall hname]
    have hblank : (name.isEmpty || name.any isBlank) = false := by
      rw [Bool.or_eq_false_iff, List.isEmpty_eq_false_iff, List.any_eq_false]
      exact ⟨hne, fun c hc => by simp [hname c hc]⟩
    rw [parseAround?, hsplit]
    dsimp only
    rw [hlhs, hblank, hbehind, hside]
    simp [hpath]
  have hjoin := List.findSome?_eq_some_iff.2 ⟨before, o, after, hall, hfound, hnone⟩
  rw [parseChars?, htrim, hjoin]
  rfl

/-- A condition is read from a name, an operator and a literal if the name shows no blanks and signs, and behind the
name the operator is found at once, and those that are looked for before it later or not at all. -/
theorem parseChars?_of_position
    (hscan : operatorScan (name ++ ' ' :: (o.symbol.toList ++ behind)) = front ++ ' ' :: shown)
    (hlength : front.length = name.length) (hfront : ∀ c ∈ front, isBlank c = false ∧ c ∉ signs)
    (hposition : o.find? (' ' :: shown) = some 1)
    (hothers : ∃ before after, Operator.all = before ++ o :: after ∧
      ∀ other ∈ before, ∀ i ∈ other.find? (' ' :: shown), 2 ≤ i)
    (hne : name ≠ []) (hname : ∀ c ∈ name, isBlank c = false)
    (hlast : ∀ c ∈ (o.symbol.toList ++ behind).getLast?, isBlank c = false)
    (hbehind : (trim behind).isEmpty = (o == .exist))
    (hside : (if twoSided then splitSide name else (.left, name)) = (side, path))
    (hpath : Path.parse (String.ofList path) = .ok p) :
    parseChars? twoSided (name ++ ' ' :: (o.symbol.toList ++ behind)) =
      some ⟨side, p, o, if o == .exist then .null else readLiteral (trim behind)⟩ := by
  obtain ⟨before, after, hall, hothers⟩ := hothers
  refine parseChars?_of_find? hscan ?_ ⟨before, after, hall, ?_⟩ hne hname hlast hbehind hside hpath
  · rw [o.find?_append hfront, hposition, Option.map_some, hlength, Nat.add_comm]
  · intro other hother i hi
    rw [other.find?_append hfront] at hi
    obtain ⟨j, hj, rfl⟩ := Option.map_eq_some_iff.1 hi
    have hbehind := hothers other hother j hj
    omega

/-- A condition is read from a name, an operator and a literal if the name shows no blanks and signs, and the
operator leads in what is shown behind the name. -/
theorem parseChars?_of_leads
    (hscan : operatorScan (name ++ ' ' :: (o.symbol.toList ++ behind)) = front ++ ' ' :: shown)
    (hlength : front.length = name.length) (hfront : ∀ c ∈ front, isBlank c = false ∧ c ∉ signs)
    (hleads : o.Leads (' ' :: shown)) (hne : name ≠ []) (hname : ∀ c ∈ name, isBlank c = false)
    (hlast : ∀ c ∈ (o.symbol.toList ++ behind).getLast?, isBlank c = false)
    (hbehind : (trim behind).isEmpty = (o == .exist))
    (hside : (if twoSided then splitSide name else (.left, name)) = (side, path))
    (hpath : Path.parse (String.ofList path) = .ok p) :
    parseChars? twoSided (name ++ ' ' :: (o.symbol.toList ++ behind)) =
      some ⟨side, p, o, if o == .exist then .null else readLiteral (trim behind)⟩ := by
  obtain ⟨-, before, after, hall, hothers⟩ := List.find?_eq_some_iff_append.1 hleads.first
  refine parseChars?_of_position hscan hlength hfront hleads.position ⟨before, after, hall, ?_⟩ hne hname hlast
    hbehind hside hpath
  intro other hother i hi
  have habsent : other.find? (' ' :: shown) = none := by simpa using hothers other hother
  rw [habsent] at hi
  contradiction

end Condition

end EntityDump
