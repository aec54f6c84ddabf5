import EntityDump.Text.DecimalDigit
/-!
# Patterns of identifying texts

Three shapes by which texts identify something: the id of an entity (`Player:42`), a date with an optional
time, and a globally unique identifier. A text has at most one of them.
-/

namespace EntityDump

open Text

/-- A shape of identifying texts. -/
inductive Pattern where
  | entityId
  | isoDate
  | guid
  deriving DecidableEq, Repr

namespace Pattern

/-- The name of a pattern. -/
def name : Pattern → String
  | entityId => "entity-id"
  | isoDate => "iso-date"
  | guid => "guid"

/-- All patterns, in the order in which several are listed. -/
def all : List Pattern := [entityId, isoDate, guid]

/-! ### Matching

A matcher takes a text and gives what is left of it. -/

/-- Takes exactly `n` characters of a kind. -/
def takeExactly? (kind : Char → Bool) (n : Nat) (s : List Char) : Option (List Char) :=
  let taken := s.take n
  if taken.length = n && taken.all kind then some (s.drop n) else none

/-- Takes one given character. -/
def takeOne? (c : Char) (s : List Char) : Option (List Char) :=
  takeExactly? (· == c) 1 s

/-- The character can stand in the type name of an entity id behind its first letter. -/
def isNameChar (c : Char) : Bool :=
  isAsciiLetter c || isAsciiDigit c || c == '_'

/-- The character can stand behind the colon of an entity id. -/
def isKeyChar (c : Char) : Bool :=
  isNameChar c || c == '-'

/-- A capital letter and name characters, a colon, and at least one key character. -/
def matchesEntityId (s : List Char) : Bool :=
  match s with
  | [] => false
  | c :: rest =>
    'A' ≤ c && c ≤ 'Z' &&
      match rest.dropWhile isNameChar with
      | ':' :: key => !key.isEmpty && key.all isKeyChar
      | _ => false

/-- Groups of eight, four, four, four and twelve hexadecimal digits between dashes. -/
def matchesGuid (s : List Char) : Bool :=
  (do
    let s ← takeExactly? isHexDigit 8 s
    let s ← takeOne? '-' s
    let s ← takeExactly? isHexDigit 4 s
    let s ← takeOne? '-' s
    let s ← takeExactly? isHexDigit 4 s
    let s ← takeOne? '-' s
    let s ← takeExactly? isHexDigit 4 s
    let s ← takeOne? '-' s
    takeExactly? isHexDigit 12 s) == some []

/-- Nothing, or a point and at least one digit; gives what is left. -/
def dropFraction (s : List Char) : List Char :=
  match s with
  | '.' :: rest =>
    if (rest.head?.any isDecimalDigit) then rest.dropWhile isDecimalDigit else s
  | _ => s

/-- Nothing, or a colon and two digits with an optional fraction; gives what is left. -/
def dropSeconds (s : List Char) : List Char :=
  match (takeOne? ':' s).bind (takeExactly? isDecimalDigit 2) with
  | some rest => dropFraction rest
  | none => s

/-- The text is empty or an offset: `Z`, or a sign, two digits, an optional colon and two digits. -/
def isOffset (s : List Char) : Bool :=
  match s with
  | [] => true
  | ['Z'] => true
  | c :: rest =>
    (c == '+' || c == '-') &&
      ((do
        let rest ← takeExactly? isDecimalDigit 2 rest
        takeExactly? isDecimalDigit 2 ((takeOne? ':' rest).getD rest)) == some [])

/-- The text is empty or a time behind `T` or a space. -/
def isTimeOfDay (s : List Char) : Bool :=
  match s with
  | [] => true
  | c :: rest =>
    (c == 'T' || c == ' ') &&
      ((do
        let rest ← takeExactly? isDecimalDigit 2 rest
        let rest ← takeOne? ':' rest
        takeExactly? isDecimalDigit 2 rest).any fun rest => isOffset (dropSeconds rest))

/-- A date of four, two and two digits between dashes, with an optional time. -/
def matchesIsoDate (s : List Char) : Bool :=
  (do
    let s ← takeExactly? isDecimalDigit 4 s
    let s ← takeOne? '-' s
    let s ← takeExactly? isDecimalDigit 2 s
    let s ← takeOne? '-' s
    takeExactly? isDecimalDigit 2 s).any isTimeOfDay

/-- The pattern of a text. -/
def detect? (text : String) : Option Pattern :=
  let s := text.toList
  if matchesGuid s then some guid
  else if matchesIsoDate s then some isoDate
  else if matchesEntityId s then some entityId
  else none

end Pattern

/-- The text is the id of an entity. -/
def isEntityId (text : String) : Bool :=
  Pattern.matchesEntityId text.toList

/-- The text before the first colon, which names the type in the id of an entity. -/
def entityTypeName? (text : String) : Option String :=
  let s := text.toList
  if s.contains ':' then some (String.ofList (s.takeWhile (· != ':'))) else none

end EntityDump
