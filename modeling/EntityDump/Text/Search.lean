/-!
# Searching and cutting texts

Finding a text inside another, cutting a text at every place where a separator stands, and cutting off
a start or an end. `find?_spec` says what stands where something is found.
-/

namespace EntityDump.Text

/-- What is left of the text after the given start, if it starts so. -/
def dropStart? : List Char → List Char → Option (List Char)
  | [], s => some s
  | _ :: _, [] => none
  | p :: ps, c :: cs => if p = c then dropStart? ps cs else none

/-- What is left of the text before the given end, if it ends so. -/
def dropEnd? (tail s : List Char) : Option (List Char) :=
  (dropStart? tail.reverse s.reverse).map List.reverse

/-- The position of the first place where the word stands. -/
def find? (word : List Char) : List Char → Option Nat
  | [] => if word.isEmpty then some 0 else none
  | c :: cs =>
    if (dropStart? word (c :: cs)).isSome then some 0 else (find? word cs).map (· + 1)

/-- The text holds the word somewhere. -/
def contains (word s : List Char) : Bool :=
  (find? word s).isSome

/-- Cuts the text at every separator, from the left; `fuel` bounds the number of characters left. -/
def splitAllAux (separator : List Char) : Nat → List Char → List (List Char)
  | 0, s => [s]
  | fuel + 1, s =>
    match find? separator s with
    | none => [s]
    | some i => s.take i :: splitAllAux separator fuel (s.drop (i + separator.length))

/-- The parts of the text between the separators, which are not empty. -/
def splitAll (separator s : List Char) : List (List Char) :=
  splitAllAux separator s.length s

/-- Cuts the text at every character of a kind. -/
def splitAt (isSeparator : Char → Bool) : List Char → List (List Char)
  | [] => [[]]
  | c :: cs =>
    if isSeparator c then [] :: splitAt isSeparator cs
    else
      match splitAt isSeparator cs with
      | [] => [[c]]
      | part :: parts => (c :: part) :: parts

/-- A beginning can be dropped exactly where the text has it. -/
theorem dropStart?_eq_some_iff {p s r : List Char} : dropStart? p s = some r ↔ s = p ++ r := by
  induction p generalizing s with
  | nil => simp [dropStart?, eq_comm]
  | cons a p ih =>
    cases s with
    | nil => simp [dropStart?]
    | cons c s => by_cases h : a = c <;> simp [dropStart?, h, ih, eq_comm]

/-- Where a word is found, it stands. -/
theorem find?_spec {word s : List Char} {i : Nat} (h : find? word s = some i) :
    ∃ rest, s.drop i = word ++ rest := by
  induction s generalizing i with
  | nil =>
    simp only [find?] at h
    split at h
    · next hw => exact ⟨[], by simp_all⟩
    · simp at h
  | cons c cs ih =>
    simp only [find?] at h
    split at h
    · next hs =>
      obtain ⟨r, hr⟩ := Option.isSome_iff_exists.1 hs
      obtain rfl := Option.some.inj h
      exact ⟨r, dropStart?_eq_some_iff.1 hr⟩
    · obtain ⟨j, hj, rfl⟩ := Option.map_eq_some_iff.1 h
      simpa using ih hj

end EntityDump.Text
