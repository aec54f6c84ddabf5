import EntityDump.Json.Basic
import EntityDump.Tokenizer.Lexeme
/-!
# Raw JSON

A JSON text taken apart by the grammar alone, with its strings and numbers still as tokens. Parts of it can be
decoded and others passed over: a part that is passed over may hold what cannot be decoded, such as half of a
surrogate pair or a number too great for a double.
-/

namespace EntityDump.Json

/-- A JSON text whose strings and numbers are tokens. -/
inductive Raw where
  | null
  | bool (b : Bool)
  | number (token : List Char)
  | string (token : List UInt8)
  | array (items : List Raw)
  /-- Fields with the tokens of their keys. -/
  | object (fields : List (List UInt8 × Raw))

namespace Raw

/-! ### Tokens -/

/-- The bytes behind the blanks that they begin with. -/
def dropBlanks (s : List UInt8) : List UInt8 :=
  s.dropWhile Lexeme.isBlank

/-- Dropping blanks adds no bytes. -/
theorem length_dropBlanks_le (s : List UInt8) : (dropBlanks s).length ≤ s.length :=
  (List.dropWhile_sublist _).length_le

/-- What may stand between the quotes of a string: characters and escapes, whatever they denote. -/
def isStringBody : List UInt8 → Bool
  | [] => true
  | b :: rest =>
    if b < 0x20 then false
    else if b ≠ StringToken.backslash then isStringBody rest
    else
      match rest with
      | [] => false
      | e :: rest =>
        if e ≠ StringToken.hexLetter then
          (StringToken.simpleEscape? e).isSome && isStringBody rest
        else
          match rest with
          | a :: b :: c :: d :: rest =>
            (StringToken.hexUnit? a b c d).isSome && isStringBody rest
          | _ => false

/-- The string token at the beginning of some bytes and what stands behind it. -/
def takeString (s : List UInt8) : Option (List UInt8 × List UInt8) := do
  let n ← Lexeme.stringLength? s
  let token := s.take n
  if isStringBody ((token.drop 1).dropLast) then some (token, s.drop n) else none

/-- The number token at the beginning of some bytes and what stands behind it. -/
def takeNumber (s : List UInt8) : Option (List Char × List UInt8) :=
  let token := Lexeme.asciiText (s.takeWhile Lexeme.isNumberByte)
  if (NumberToken.read? token).isSome then some (token, s.dropWhile Lexeme.isNumberByte) else none

/-- What stands behind a word, if the bytes begin with it. -/
def dropWord? (word : String) (s : List UInt8) : Option (List UInt8) :=
  let bytes := word.toUTF8.toList
  if s.take bytes.length = bytes then some (s.drop bytes.length) else none

/-- The scalar at the beginning of some bytes and what stands behind it. -/
def takeScalar (s : List UInt8) : Option (Raw × List UInt8) :=
  if s.head? = some StringToken.quote then (takeString s).map fun (token, rest) => (string token, rest)
  else if s.head?.any Lexeme.beginsNumber then
    (takeNumber s).map fun (token, rest) => (number token, rest)
  else
    ((dropWord? "null" s).map fun rest => (null, rest)) <|>
      ((dropWord? "true" s).map fun rest => (bool true, rest)) <|>
      ((dropWord? "false" s).map fun rest => (bool false, rest))

/-! ### Values -/

mutual

/-- The value at the beginning of some bytes and what stands behind it. -/
def takeValue (s : List UInt8) : Option (Raw × List UInt8) :=
  match s with
  | [] => none
  | b :: rest =>
    if b = 0x5b then
      match _h : dropBlanks rest with
      | [] => none
      | c :: behind =>
        if c = 0x5d then some (array [], behind)
        else (takeItems (c :: behind)).map fun (items, rest) => (array items, rest)
    else if b = 0x7b then
      match _h : dropBlanks rest with
      | [] => none
      | c :: behind =>
        if c = 0x7d then some (object [], behind)
        else (takeFields (c :: behind)).map fun (fields, rest) => (object fields, rest)
    else takeScalar (b :: rest)
termination_by (s.length, 0)
decreasing_by
  all_goals
    have := length_dropBlanks_le rest
    rw [_h] at this
    simp only [List.length_cons] at this ⊢
    left
    omega

/-- The items up to the end of an array and what stands behind it. -/
def takeItems (s : List UInt8) : Option (List Raw × List UInt8) :=
  match takeValue s with
  | none => none
  | some (item, rest) =>
    match dropBlanks rest with
    | [] => none
    | c :: behind =>
      if c = 0x5d then some ([item], behind)
      else if c = 0x2c then
        let next := dropBlanks behind
        if next.length < s.length then
          (takeItems next).map fun (items, rest) => (item :: items, rest)
        else none
      else none
termination_by (s.length, 1)
decreasing_by
  · right
    omega
  · left
    assumption

/-- The fields up to the end of an object and what stands behind it. -/
def takeFields (s : List UInt8) : Option (List (List UInt8 × Raw) × List UInt8) :=
  if s.head? ≠ some StringToken.quote then none
  else
    match takeString s with
    | none => none
    | some (key, rest) =>
      match dropBlanks rest with
      | [] => none
      | c :: behind =>
        if c ≠ 0x3a then none
        else
          let place := dropBlanks behind
          if place.length < s.length then
            match takeValue place with
            | none => none
            | some (value, rest) =>
              match dropBlanks rest with
              | [] => none
              | c :: behind =>
                if c = 0x7d then some ([(key, value)], behind)
                else if c = 0x2c then
                  let next := dropBlanks behind
                  if next.length < s.length then
                    (takeFields next).map fun (fields, rest) => ((key, value) :: fields, rest)
                  else none
                else none
          else none
termination_by (s.length, 1)
decreasing_by
  all_goals
    left
    assumption

end

/-- Takes a whole JSON text apart, blanks around the value apart. -/
def parse? (text : String) : Option Raw :=
  match takeValue (dropBlanks text.toUTF8.toList) with
  | some (raw, rest) => if (dropBlanks rest).isEmpty then some raw else none
  | none => none

/-! ### Decoding -/

/-- The text of a string token, unless it cannot be decoded. -/
def decodeString? (token : List UInt8) : Option String :=
  (StringToken.decode token).toOption

mutual

/-- The value, unless some of it cannot be decoded or it has more than `room` levels of containers. -/
def decode? (room : Nat) : Raw → Option Json
  | .null => some .null
  | .bool b => some (.bool b)
  | .number token => (Number.decode? token).map Json.number
  | .string token => (decodeString? token).map Json.string
  | .array items =>
    match room with
    | 0 => none
    | room + 1 => (decodeItems? room items).map Json.array
  | .object fields =>
    match room with
    | 0 => none
    | room + 1 => (decodeFields? room fields).map fun fields => .object (Fields.ofList fields)

/-- The items of an array. -/
def decodeItems? (room : Nat) : List Raw → Option (List Json)
  | [] => some []
  | item :: rest => do
    let item ← decode? room item
    return item :: (← decodeItems? room rest)

/-- The fields of an object in order of the text. -/
def decodeFields? (room : Nat) : List (List UInt8 × Raw) → Option (List (String × Json))
  | [] => some []
  | (key, value) :: rest => do
    let key ← decodeString? key
    let value ← decode? room value
    return (key, value) :: (← decodeFields? room rest)

end

end Raw

end EntityDump.Json
