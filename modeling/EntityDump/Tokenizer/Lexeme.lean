import EntityDump.Json.NumberToken
import EntityDump.Json.StringToken
/-!
# The extent of tokens

How far the token at the beginning of some bytes reaches: a string up to its closing quote, a number as
far as number characters go. `closingQuote_le` says that a string token lies within the bytes.
-/

namespace EntityDump.Lexeme

/-- The byte is a blank between tokens. -/
def isBlank (b : UInt8) : Bool :=
  b == 0x20 || b == 0x09 || b == 0x0a || b == 0x0d

/-- The byte can stand in a number. -/
def isNumberByte (b : UInt8) : Bool :=
  (0x30 ≤ b && b ≤ 0x39) || b == 0x2d || b == 0x2b || b == 0x2e || b == 0x65 || b == 0x45

/-- The byte begins a number. -/
def beginsNumber (b : UInt8) : Bool :=
  (0x30 ≤ b && b ≤ 0x39) || b == 0x2d

/-- The number of bytes up to and including the closing quote, counted on from `seen`. An escaped byte
never closes the string. -/
def closingQuote (seen : Nat) : List UInt8 → Option Nat
  | [] => none
  | b :: rest =>
    if b = Json.StringToken.quote then some (seen + 1)
    else if b = Json.StringToken.backslash then
      match rest with
      | [] => none
      | _ :: rest => closingQuote (seen + 2) rest
    else closingQuote (seen + 1) rest

/-- The length of the string token at the beginning of the bytes, if its closing quote is there. -/
def stringLength? (bytes : List UInt8) : Option Nat :=
  closingQuote 1 (bytes.drop 1)

/-- ASCII bytes as characters. -/
def asciiText (bytes : List UInt8) : List Char :=
  bytes.map fun b => Char.ofNat b.toNat

/-- A quote closes the string. -/
theorem closingQuote_quote (seen : Nat) (rest : List UInt8) :
    closingQuote seen (Json.StringToken.quote :: rest) = some (seen + 1) := by
  rw [closingQuote.eq_def]
  simp

/-- The byte behind a backslash does not close the string. -/
theorem closingQuote_backslash (seen : Nat) (e : UInt8) (rest : List UInt8) :
    closingQuote seen (Json.StringToken.backslash :: e :: rest) = closingQuote (seen + 2) rest := by
  rw [closingQuote.eq_def]
  simp [show Json.StringToken.backslash ≠ Json.StringToken.quote by decide]

/-- No other byte closes the string. -/
theorem closingQuote_of_ne {b : UInt8} (hq : b ≠ Json.StringToken.quote)
    (hb : b ≠ Json.StringToken.backslash) (seen : Nat) (rest : List UInt8) :
    closingQuote seen (b :: rest) = closingQuote (seen + 1) rest := by
  rw [closingQuote.eq_def]
  simp [hq, hb]

/-- The closing quote stands among the bytes. -/
theorem closingQuote_le {seen n : Nat} {bytes : List UInt8} (h : closingQuote seen bytes = some n) :
    seen < n ∧ n ≤ seen + bytes.length := by
  fun_induction closingQuote seen bytes with
  | case1 => simp at h
  | case2 seen rest => simp only [Option.some.injEq] at h; simp; omega
  | case3 => simp at h
  | case4 seen _ _ rest ih => have := ih h; simp; omega
  | case5 seen _ rest _ _ ih => have := ih h; simp; omega

/-- A string token is not empty and lies within bytes that are not empty. -/
theorem stringLength?_le {bytes : List UInt8} {n : Nat} (hb : bytes ≠ [])
    (h : stringLength? bytes = some n) : 0 < n ∧ n ≤ bytes.length := by
  obtain ⟨b, rest, rfl⟩ := List.exists_cons_of_ne_nil hb
  have := closingQuote_le h
  simp only [List.drop_succ_cons, List.drop_zero, List.length_cons] at this ⊢
  omega

end EntityDump.Lexeme
