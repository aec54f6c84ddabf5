/-!
# Reading UTF-8

Bytes read as text, and where they stop being UTF-8 if they do. While a character is incomplete the scan keeps
the ranges of the bytes that it still owes.
-/

namespace EntityDump.Text

/-- Where bytes stop being UTF-8. -/
structure Utf8Fault where
  /-- The number of bytes before the faulty character. -/
  index : Nat
  /-- How many bytes are wrong; none when the bytes end inside the character. -/
  length : Option Nat
  deriving DecidableEq, Repr

/-- The wording of a fault. -/
def Utf8Fault.message (fault : Utf8Fault) : String :=
  match fault.length with
  | some n => s!"invalid utf-8 sequence of {n} bytes from index {fault.index}"
  | none => s!"incomplete utf-8 byte sequence from index {fault.index}"

namespace Utf8

/-- The bytes from `low` to `high`. -/
structure Range where
  low : UInt8
  high : UInt8

/-- The byte lies in the range. -/
def Range.contains (r : Range) (b : UInt8) : Bool :=
  r.low ≤ b && b ≤ r.high

/-- Any byte inside a character. -/
def tail : Range := ⟨0x80, 0xbf⟩

/-- The bytes that a first byte owes; none if no character begins with it. -/
def owed? (b : UInt8) : Option (List Range) :=
  if b < 0x80 then some []
  else if 0xc2 ≤ b && b ≤ 0xdf then some [tail]
  else if b = 0xe0 then some [⟨0xa0, 0xbf⟩, tail]
  else if b = 0xed then some [⟨0x80, 0x9f⟩, tail]
  else if 0xe1 ≤ b && b ≤ 0xef then some [tail, tail]
  else if b = 0xf0 then some [⟨0x90, 0xbf⟩, tail, tail]
  else if 0xf1 ≤ b && b ≤ 0xf3 then some [tail, tail, tail]
  else if b = 0xf4 then some [⟨0x80, 0x8f⟩, tail, tail]
  else none

/-- Where the bytes stop being UTF-8. `start` bytes make up the characters before the one that still owes
bytes, and `seen` more bytes belong to that one. -/
def fault (owed : List Range) (start seen : Nat) : List UInt8 → Utf8Fault
  | [] => ⟨start, none⟩
  | b :: rest =>
    match owed with
    | range :: owed =>
      if range.contains b then fault owed start (seen + 1) rest else ⟨start, some seen⟩
    | [] =>
      match owed? b with
      | some owed => fault owed (start + seen) 1 rest
      | none => ⟨start + seen, some 1⟩

end Utf8

/-- The text of some bytes. -/
def decodeUtf8 (bytes : List UInt8) : Except Utf8Fault String :=
  match String.fromUTF8? ⟨bytes.toArray⟩ with
  | some s => .ok s
  | none => .error (Utf8.fault [] 0 0 bytes)

/-- How many bytes stand before the first character that is not UTF-8. -/
def validLength (bytes : List UInt8) : Nat :=
  match decodeUtf8 bytes with
  | .ok _ => bytes.length
  | .error fault => fault.index

end EntityDump.Text
