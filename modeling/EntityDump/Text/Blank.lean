/-!
# Blank characters

The characters of the Unicode property White_Space, and trimming by them. Expressions, literals and
sub-paths are trimmed with `trim` before they are read. `trim_eq_nil_iff` says that a text trims to
nothing exactly when it is blank throughout.
-/

namespace EntityDump.Text

/-- The character has the Unicode property White_Space. -/
def isBlank (c : Char) : Bool :=
  let n := c.toNat
  (9 ≤ n && n ≤ 13) || n == 0x20 || n == 0x85 || n == 0xa0 || n == 0x1680 ||
    (0x2000 ≤ n && n ≤ 0x200a) || n == 0x2028 || n == 0x2029 || n == 0x202f || n == 0x205f ||
    n == 0x3000

/-- The text without the blanks it starts with. -/
def trimStart (s : List Char) : List Char :=
  s.dropWhile isBlank

/-- The text without the blanks it ends with. -/
def trimEnd (s : List Char) : List Char :=
  (s.reverse.dropWhile isBlank).reverse

/-- The text without blanks on either side. -/
def trim (s : List Char) : List Char :=
  trimEnd (trimStart s)

/-- The string without blanks on either side. -/
def trimmed (s : String) : String :=
  String.ofList (trim s.toList)

/-- The string holds nothing but blanks. -/
def isBlankString (s : String) : Bool :=
  (trim s.toList).isEmpty

/-- Dropping a prefix of blanks leaves nothing exactly when all is blank. -/
theorem dropWhile_isBlank_eq_nil_iff (s : List Char) :
    s.dropWhile isBlank = [] ↔ ∀ c ∈ s, isBlank c = true := by
  induction s with
  | nil => simp
  | cons c r ih => by_cases h : isBlank c = true <;> simp [List.dropWhile, h, ih]

/-- A text trims to nothing exactly when it is blank throughout. -/
theorem trim_eq_nil_iff (s : List Char) : trim s = [] ↔ ∀ c ∈ s, isBlank c = true := by
  unfold trim trimEnd trimStart
  rw [List.reverse_eq_nil_iff, dropWhile_isBlank_eq_nil_iff]
  constructor
  · intro h c hc
    by_cases hb : s.dropWhile isBlank = []
    · exact (dropWhile_isBlank_eq_nil_iff s).1 hb c hc
    · obtain ⟨d, r, hr⟩ := List.exists_cons_of_ne_nil hb
      have hd : isBlank d = false := by
        have := List.head?_dropWhile_not isBlank s
        rw [hr] at this
        simpa using this
      have : isBlank d = true := h d (by simp [hr])
      simp [hd] at this
  · intro h c hc
    exact h c ((List.dropWhile_sublist isBlank).subset (List.mem_reverse.1 hc))

end EntityDump.Text
