import EntityDump.Error
import EntityDump.Numeric.Literal
import EntityDump.Path.Basic
/-!
# Reading path expressions

Keys stand between dots, brackets hold a star, an index or a key in quotes. A bracket whose content begins
with a quote ends at the first closing bracket that comes right behind the same quote. Positions in messages
count bytes.
-/

namespace EntityDump

open Text

namespace Path

/-- The character is one of the two quotes. -/
def isQuote (c : Char) : Bool :=
  c == '\'' || c == '"'

/-- The text begins, behind blanks, with a quote that it does not end with. -/
def hasOpenQuote (inner : List Char) : Bool :=
  match trimStart inner with
  | [] => false
  | q :: rest => isQuote q && rest.getLast? != some q

/-- The content of a bracket and what comes behind it; `reversed` is the content before the given
characters, its last character first. Nothing is given when the bracket does not close. -/
def takeBracket (reversed : List Char) : List Char → Option (List Char × List Char)
  | [] => none
  | c :: rest =>
    if c = ']' && !hasOpenQuote reversed.reverse then some (reversed.reverse, rest)
    else takeBracket (c :: reversed) rest

/-- The text between a pair of the given quotes. -/
def unquote? (q : Char) (s : List Char) : Option (List Char) :=
  match s with
  | [] => none
  | c :: rest => if c = q then dropEnd? [q] rest else none

/-- The segment that the trimmed content of a bracket denotes. -/
def readSelector (inner : List Char) : Except PathFault Segment :=
  if inner = ['*'] then .ok .wildcard
  else
    match Numeric.readWord? inner with
    | some n => .ok (.index n)
    | none =>
      match (unquote? '\'' inner).orElse fun _ => unquote? '"' inner with
      | some name => .ok (.key (String.ofList name))
      | none => .error (.unsupportedSelector (String.ofList inner))

/-- How many bytes the characters take. -/
def byteLength (s : List Char) : Nat :=
  s.foldl (fun n c => n + c.utf8Size) 0

/-- Reading a path, character by character. -/
structure Scanner where
  /-- The bytes read so far. -/
  position : Nat := 0
  /-- The key that is being read, its last character first. -/
  key : List Char := []
  /-- A bracket was closed and no dot has come since. -/
  afterBracket : Bool := false
  /-- The segments so far, the last one first. -/
  segments : List Segment := []

namespace Scanner

/-- Ends the key that is being read, if there is one. -/
def endKey (s : Scanner) : Scanner :=
  if s.key.isEmpty then s
  else { s with key := [], segments := .key (String.ofList s.key.reverse) :: s.segments }

end Scanner

/-- Behind a bracket there is less of the text. -/
theorem length_rest_of_takeBracket {reversed s inner rest : List Char}
    (h : takeBracket reversed s = some (inner, rest)) : rest.length < s.length := by
  induction s generalizing reversed with
  | nil => simp [takeBracket] at h
  | cons c s ih =>
    unfold takeBracket at h
    split at h
    · simp only [Option.some.injEq, Prod.mk.injEq] at h
      simp [← h.2]
    · have := ih h
      simp only [List.length_cons]
      omega

/-- Reads the rest of a path. -/
def scan (s : Scanner) : List Char → Except PathFault (List Segment)
  | [] => .ok s.endKey.segments.reverse
  | c :: rest =>
    if c = '.' then
      if s.key.isEmpty && !s.afterBracket then .error (.emptyKey s.position)
      else if rest.isEmpty then .error .endsWithDot
      else scan { s.endKey with position := s.position + 1, afterBracket := false } rest
    else if c = '[' then
      match _h : takeBracket [] rest with
      | none => .error (.unclosedBracket s.position)
      | some (inner, behind) =>
        match readSelector (trim inner) with
        | .error fault => .error fault
        | .ok segment =>
          let s := s.endKey
          scan { s with
            position := s.position + byteLength inner + 2
            afterBracket := true
            segments := segment :: s.segments } behind
    else if c = ']' then .error (.unexpectedBracket s.position)
    else if s.afterBracket && s.key.isEmpty then .error (.afterBracket s.position)
    else scan { s with position := s.position + c.utf8Size, key := c :: s.key } rest
termination_by chars => chars.length
decreasing_by
  · simp
  · have := length_rest_of_takeBracket _h
    simp only [List.length_cons]
    omega
  · simp

/-- Reads a path expression, blanks around it apart. -/
def parse (expression : String) : Except Error Path :=
  let text := trim expression.toList
  match scan {} text with
  | .ok segments => .ok ⟨String.ofList text, segments⟩
  | .error fault => .error (.invalidPath expression fault)

/-- An expression without blanks around it is read as its segments. -/
theorem parse_of_scan {expression : String} {segments : List Segment}
    (htrim : trim expression.toList = expression.toList)
    (hscan : scan {} expression.toList = .ok segments) : parse expression = .ok ⟨expression, segments⟩ := by
  simp [parse, htrim, hscan]

end Path

end EntityDump
