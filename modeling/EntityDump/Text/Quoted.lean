import EntityDump.Text.Printable
/-!
# Quoted examples

A text between quotes as examples are shown: control characters, quotes and backslashes as escapes of one
letter, and every character that would not be seen as itself by its number.
-/

namespace EntityDump.Text

/-- The characters that stand for a character between quotes. -/
def quotedChar (c : Char) : List Char :=
  if c.toNat = 0 then ['\\', '0']
  else if c = '\t' then ['\\', 't']
  else if c = '\r' then ['\\', 'r']
  else if c = '\n' then ['\\', 'n']
  else if c = '"' then ['\\', '"']
  else if c = '\\' then ['\\', '\\']
  else if isShown c then [c]
  else ['\\', 'u', '\x7b'] ++ Nat.toDigits 16 c.toNat ++ ['\x7d']

/-- The text between quotes. -/
def quotedText (s : List Char) : List Char :=
  '"' :: s.flatMap quotedChar ++ ['"']

/-- At most `n` characters of a text, with an ellipsis if there are more. -/
def clip (n : Nat) (s : List Char) : List Char :=
  if s.length ≤ n then s else s.take n ++ ['…']

end EntityDump.Text
