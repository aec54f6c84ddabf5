import EntityDump.Text.Utf8

/-!
# Decoding string tokens

A string token is a run of bytes that begins and ends with a quote. Decoding resolves its escapes and
checks that the bytes are UTF-8; of several faults the first in reading order counts. A failure names its
cause and how many bytes had been looked at, from which the line and column within the token follow.
-/

namespace EntityDump.Json

/-- Why a string token cannot be decoded. -/
inductive StringFault where
  /-- A byte below 0x20 stands unescaped. -/
  | controlCharacter
  /-- A backslash is followed by no known letter, or a hexadecimal escape by other characters. -/
  | invalidEscape
  /-- The first half of a surrogate pair is not followed by another escape. -/
  | unexpectedEndOfHexEscape
  /-- Half of a surrogate pair without its other half. -/
  | loneSurrogate
  /-- The bytes are not UTF-8. -/
  | invalidCodePoint
  /-- The token ends inside an escape. -/
  | endOfString
  deriving DecidableEq, Repr

/-- The wording of a fault. -/
def StringFault.message : StringFault → String
  | controlCharacter => "control character (\\u0000-\\u001F) found while parsing a string"
  | invalidEscape => "invalid escape"
  | unexpectedEndOfHexEscape => "unexpected end of hex escape"
  | loneSurrogate => "lone leading surrogate in hex escape"
  | invalidCodePoint => "invalid unicode code point"
  | endOfString => "EOF while parsing a string"

namespace StringToken

/-- The quote around a string. -/
def quote : UInt8 := 0x22

/-- The backslash before an escape. -/
def backslash : UInt8 := 0x5c

/-- The letter of a hexadecimal escape. -/
def hexLetter : UInt8 := 0x75

/-- The byte that an escape of one letter stands for. -/
def simpleEscape? (b : UInt8) : Option UInt8 :=
  if b = quote || b = backslash || b = 0x2f then some b
  else if b = 0x62 then some 0x08
  else if b = 0x66 then some 0x0c
  else if b = 0x6e then some 0x0a
  else if b = 0x72 then some 0x0d
  else if b = 0x74 then some 0x09
  else none

/-- The value of a hexadecimal digit. -/
def hexDigit? (b : UInt8) : Option Nat :=
  if 0x30 ≤ b && b ≤ 0x39 then some (b.toNat - 0x30)
  else if 0x41 ≤ b && b ≤ 0x46 then some (b.toNat - 0x41 + 10)
  else if 0x61 ≤ b && b ≤ 0x66 then some (b.toNat - 0x61 + 10)
  else none

/-- The value of four hexadecimal digits. -/
def hexUnit? (a b c d : UInt8) : Option Nat := do
  let a ← hexDigit? a
  let b ← hexDigit? b
  let c ← hexDigit? c
  let d ← hexDigit? d
  return ((a * 16 + b) * 16 + c) * 16 + d

/-- The unit is the first half of a surrogate pair. -/
def isLeading (n : Nat) : Bool :=
  0xd800 ≤ n && n ≤ 0xdbff

/-- The unit is the second half of a surrogate pair. -/
def isTrailing (n : Nat) : Bool :=
  0xdc00 ≤ n && n ≤ 0xdfff

/-- The code point of a surrogate pair. -/
def pairValue (lead trail : Nat) : Nat :=
  0x10000 + (lead - 0xd800) * 0x400 + (trail - 0xdc00)

/-- Appends the UTF-8 bytes of a code point. -/
def pushCodePoint (out : ByteArray) (n : Nat) : ByteArray :=
  out ++ (String.singleton (Char.ofNat n)).toUTF8

/-- The bytes up to the closing quote with escapes resolved, and the number of bytes looked at. `seen`
bytes came before the given ones and stand for `out`; the first `valid` bytes of the token are UTF-8 and
the next one, if there is one, is not. -/
def decodeBody (valid : Nat) :
    List UInt8 → Nat → ByteArray → Except (StringFault × Nat) (ByteArray × Nat)
  | [], seen, _ => .error (.endOfString, seen)
  | b :: rest, seen, out =>
    if b = quote then .ok (out, seen + 1)
    else if b < 0x20 then .error (.controlCharacter, seen + 1)
    else if seen = valid then .error (.invalidCodePoint, seen + 1)
    else if b ≠ backslash then decodeBody valid rest (seen + 1) (out.push b)
    else
      match rest with
      | [] => .error (.endOfString, seen + 1)
      | e :: rest =>
        if e ≠ hexLetter then
          match simpleEscape? e with
          | some b => decodeBody valid rest (seen + 2) (out.push b)
          | none => .error (.invalidEscape, seen + 2)
        else
          match rest with
          | a :: b :: c :: d :: rest =>
            match hexUnit? a b c d with
            | none => .error (.invalidEscape, seen + 6)
            | some unit =>
              if isTrailing unit then .error (.loneSurrogate, seen + 6)
              else if !isLeading unit then decodeBody valid rest (seen + 6) (pushCodePoint out unit)
              else
                match rest with
                | [] => .error (.endOfString, seen + 6)
                | [s] =>
                  if s = backslash then .error (.endOfString, seen + 7)
                  else .error (.unexpectedEndOfHexEscape, seen + 7)
                | s :: u :: rest =>
                  if s ≠ backslash then .error (.unexpectedEndOfHexEscape, seen + 7)
                  else if u ≠ hexLetter then .error (.unexpectedEndOfHexEscape, seen + 8)
                  else
                    match rest with
                    | a :: b :: c :: d :: rest =>
                      match hexUnit? a b c d with
                      | none => .error (.invalidEscape, seen + 12)
                      | some trail =>
                        if isTrailing trail then
                          decodeBody valid rest (seen + 12) (pushCodePoint out (pairValue unit trail))
                        else .error (.loneSurrogate, seen + 12)
                    | rest => .error (.endOfString, seen + 8 + rest.length)
          | rest => .error (.endOfString, seen + 2 + rest.length)

/-- Decodes a string token; a failure tells how many bytes of the token had been looked at. -/
def decode (token : List UInt8) : Except (StringFault × Nat) String := do
  let (bytes, seen) ← decodeBody (Text.validLength token) (token.drop 1) 1 ByteArray.empty
  -- `decodeBody` lets UTF-8 alone through, so there is a text.
  match String.fromUTF8? bytes with
  | some s => return s
  | none => throw (.invalidCodePoint, seen)

/-- The line after the first `seen` bytes of a token, counted from one. -/
def lineAt (token : List UInt8) (seen : Nat) : Nat :=
  (token.take seen).countP (· == 0x0a) + 1

/-- The number of bytes looked at since the last line break. -/
def columnAt (token : List UInt8) (seen : Nat) : Nat :=
  ((token.take seen).reverse.takeWhile (· != 0x0a)).length

end StringToken

end EntityDump.Json
