import EntityDump.Json.Basic
/-!
# JSON text

A value as JSON text, compact or indented. Strings escape the quote, the backslash and the characters
below U+0020 and nothing else.
-/

namespace EntityDump.Json

/-- The hexadecimal digit of a number below sixteen. -/
def hexDigitChar (n : Nat) : Char :=
  Nat.digitChar n

/-- The characters that stand for a character inside a string. -/
def escaped (c : Char) : List Char :=
  if c = '"' then ['\\', '"']
  else if c = '\\' then ['\\', '\\']
  else if c.toNat = 0x08 then ['\\', 'b']
  else if c.toNat = 0x0c then ['\\', 'f']
  else if c = '\n' then ['\\', 'n']
  else if c = '\r' then ['\\', 'r']
  else if c = '\t' then ['\\', 't']
  else if c.toNat < 0x20 then
    ['\\', 'u', '0', '0', hexDigitChar (c.toNat / 16), hexDigitChar (c.toNat % 16)]
  else [c]

/-- A string in quotes. -/
def quoted (s : String) : String :=
  String.ofList ('"' :: s.toList.flatMap escaped ++ ['"'])

/-- The word for a truth value. -/
def boolText (b : Bool) : String :=
  if b then "true" else "false"

/-! ### Compact text -/

mutual

/-- The value without any blanks between tokens. -/
def compact : Json → String
  | null => "null"
  | bool b => boolText b
  | number n => n.text
  | string s => quoted s
  | array items => "[" ++ compactItems items ++ "]"
  | object fields => "\x7b" ++ compactFields fields ++ "\x7d"

/-- Items between commas. -/
def compactItems : List Json → String
  | [] => ""
  | [item] => compact item
  | item :: rest => compact item ++ "," ++ compactItems rest

/-- Fields between commas. -/
def compactFields : List (String × Json) → String
  | [] => ""
  | [(key, value)] => quoted key ++ ":" ++ compact value
  | (key, value) :: rest => quoted key ++ ":" ++ compact value ++ "," ++ compactFields rest

end

/-! ### Indented text -/

/-- The blanks that a line of the given depth starts with. -/
def indentation (depth : Nat) : String :=
  String.ofList (List.replicate (2 * depth) ' ')

mutual

/-- The value on several lines, each level two blanks deeper; empty containers stay on one line. -/
def pretty (depth : Nat) : Json → String
  | null => "null"
  | bool b => boolText b
  | number n => n.text
  | string s => quoted s
  | array [] => "[]"
  | array (item :: rest) =>
    "[\n" ++ prettyItems (depth + 1) (item :: rest) ++ "\n" ++ indentation depth ++ "]"
  | object [] => "\x7b\x7d"
  | object (field :: rest) =>
    "\x7b\n" ++ prettyFields (depth + 1) (field :: rest) ++ "\n" ++ indentation depth ++ "\x7d"

/-- Items on lines of their own. -/
def prettyItems (depth : Nat) : List Json → String
  | [] => ""
  | [item] => indentation depth ++ pretty depth item
  | item :: rest => indentation depth ++ pretty depth item ++ ",\n" ++ prettyItems depth rest

/-- Fields on lines of their own. -/
def prettyFields (depth : Nat) : List (String × Json) → String
  | [] => ""
  | [(key, value)] => indentation depth ++ quoted key ++ ": " ++ pretty depth value
  | (key, value) :: rest =>
    indentation depth ++ quoted key ++ ": " ++ pretty depth value ++ ",\n" ++ prettyFields depth rest

end

end EntityDump.Json
