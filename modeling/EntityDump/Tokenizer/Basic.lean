import EntityDump.Json.Event
import EntityDump.Tokenizer.Fault
import EntityDump.Tokenizer.Lexeme
/-!
# The tokenizer

A tokenizer is fed bytes in pieces of any size and gives one event at a time. It keeps the bytes that it
has not used yet, the containers that are open and what may come next; of a token that is not complete it
uses nothing. An event always uses bytes: `length_buffer_of_event`.
-/

namespace EntityDump

open Json (Event)

/-- The two kinds of containers. -/
inductive Container where
  | object
  | array
  deriving DecidableEq, Repr

/-- What may come next. -/
inductive Expect where
  /-- A value: at the beginning, after a colon, after a comma in an array. -/
  | value
  /-- A value or the end, right after an array was opened. -/
  | firstValue
  /-- A key or the end, right after an object was opened. -/
  | firstKey
  /-- A key, after a comma in an object. -/
  | key
  /-- The colon after a key. -/
  | colon
  /-- A comma or the end of the innermost container. -/
  | commaOrClose
  /-- Nothing, the value being complete. -/
  | finished
  deriving DecidableEq, Repr

/-- The most bytes of an unfinished token that are kept, unless a configuration says otherwise. -/
def defaultMaxTokenBytes : Nat := 64 * 1024 * 1024

/-- The state of reading one JSON text. -/
structure Tokenizer where
  /-- The bytes not used yet. -/
  buffer : List UInt8 := []
  /-- The number of bytes used. -/
  offset : Nat := 0
  /-- The open containers, the innermost first. -/
  stack : List Container := []
  expect : Expect := .value
  /-- No bytes will follow. -/
  ended : Bool := false
  /-- The most bytes of an unfinished token. -/
  maxTokenBytes : Nat := defaultMaxTokenBytes
  deriving Repr

/-- What pulling at a tokenizer gives when nothing is wrong. -/
inductive TokenizerStep where
  | event (e : Event)
  /-- The bytes end inside a token or between tokens. -/
  | needMore
  /-- The value is complete and the text is at its end. -/
  | finished

namespace Tokenizer

/-! ### Feeding -/

/-- Appends bytes. -/
def feed (t : Tokenizer) (bytes : List UInt8) : Tokenizer :=
  { t with buffer := t.buffer ++ bytes }

/-- Says that no bytes will follow. -/
def finish (t : Tokenizer) : Tokenizer :=
  { t with ended := true }

/-- The number of open containers. -/
def depth (t : Tokenizer) : Nat :=
  t.stack.length

/-- The number of bytes fed and not used. -/
def buffered (t : Tokenizer) : Nat :=
  t.buffer.length

/-! ### Using bytes -/

/-- Uses some bytes. -/
def advance (t : Tokenizer) (n : Nat) : Tokenizer :=
  { t with buffer := t.buffer.drop n, offset := t.offset + n }

/-- Uses the blanks at the beginning. -/
def skipBlanks (t : Tokenizer) : Tokenizer :=
  t.advance (t.buffer.takeWhile Lexeme.isBlank).length

/-- A fault at the first byte not used. -/
def fail {α : Type} (t : Tokenizer) (fault : TokenFault) : Except TokenError α :=
  .error ⟨t.offset, fault⟩

/-- Now a value is complete: the document, if no container is open. -/
def afterValue (t : Tokenizer) : Tokenizer :=
  { t with expect := if t.stack.isEmpty then .finished else .commaOrClose }

/-- Gives a scalar that took some bytes. -/
def scalar (t : Tokenizer) (n : Nat) (value : Json) : TokenizerStep × Tokenizer :=
  (.event (.scalar value), (t.advance n).afterValue)

/-- Opens a container, whose bracket is the first byte. -/
def openContainer (t : Tokenizer) : Container → TokenizerStep × Tokenizer
  | .object =>
    (.event .objectStart, { t.advance 1 with stack := .object :: t.stack, expect := .firstKey })
  | .array =>
    (.event .arrayStart, { t.advance 1 with stack := .array :: t.stack, expect := .firstValue })

/-- Closes the innermost container, whose bracket is the first byte. -/
def closeContainer (t : Tokenizer) (e : Event) : TokenizerStep × Tokenizer :=
  (.event e, { t.advance 1 with stack := t.stack.tail }.afterValue)

/-- An unfinished token: wrong at the end of the text or when it is too long. -/
def incomplete (t : Tokenizer) (kind : TokenKind) : Except TokenError (TokenizerStep × Tokenizer) :=
  if t.ended then t.fail (.unterminated kind)
  else if t.buffer.length > t.maxTokenBytes then t.fail (.tooLong kind t.maxTokenBytes)
  else .ok (.needMore, t)

/-! ### Tokens

Each of these looks at the token that the first byte begins. -/

/-- Reads a string and goes on with its text and its length. -/
def lexString (t : Tokenizer) (next : String → Nat → TokenizerStep × Tokenizer) :
    Except TokenError (TokenizerStep × Tokenizer) :=
  match Lexeme.stringLength? t.buffer with
  | none => t.incomplete .string
  | some n =>
    let token := t.buffer.take n
    match Json.StringToken.decode token with
    | .ok text => .ok (next text n)
    | .error (fault, seen) =>
      t.fail (.badString fault (Json.StringToken.lineAt token seen)
        (Json.StringToken.columnAt token seen))

/-- Reads a key. -/
def lexKey (t : Tokenizer) : Except TokenError (TokenizerStep × Tokenizer) :=
  t.lexString fun text n => (.event (.key text), { t.advance n with expect := .colon })

/-- Reads a number. It goes as far as number characters go, and may still grow unless another byte or the
end of the text follows. -/
def lexNumber (t : Tokenizer) : Except TokenError (TokenizerStep × Tokenizer) :=
  let token := t.buffer.takeWhile Lexeme.isNumberByte
  if (t.buffer.drop token.length).isEmpty && !t.ended then t.incomplete .number
  else
    match Json.Number.decode? (Lexeme.asciiText token) with
    | some n => .ok (t.scalar token.length (.number n))
    | none => t.fail (.badNumber (String.ofList (Lexeme.asciiText token)))

/-- Reads one of the words for a scalar. -/
def lexLiteral (t : Tokenizer) (word : LiteralWord) (value : Json) :
    Except TokenError (TokenizerStep × Tokenizer) :=
  let available := t.buffer.take word.bytes.length
  if available ≠ word.bytes.take available.length then t.fail (.badLiteral word)
  else if available.length < word.bytes.length then
    if t.ended then t.fail .endInLiteral else .ok (.needMore, t)
  else .ok (t.scalar word.bytes.length value)

/-- Reads the value that a byte begins. -/
def lexValue (t : Tokenizer) (b : UInt8) : Except TokenError (TokenizerStep × Tokenizer) :=
  if b = 0x7b then .ok (t.openContainer .object)
  else if b = 0x5b then .ok (t.openContainer .array)
  else if b = 0x22 then t.lexString fun text n => t.scalar n (.string text)
  else if Lexeme.beginsNumber b then t.lexNumber
  else if b = 0x74 then t.lexLiteral .trueWord (.bool true)
  else if b = 0x66 then t.lexLiteral .falseWord (.bool false)
  else if b = 0x6e then t.lexLiteral .nullWord .null
  else t.fail (.unexpected b .value)

/-- Reads what a byte begins, by what may come next. -/
def lexNext (t : Tokenizer) (b : UInt8) : Except TokenError (TokenizerStep × Tokenizer) :=
  match t.expect with
  | .value => t.lexValue b
  | .firstValue => if b = 0x5d then .ok (t.closeContainer .arrayEnd) else t.lexValue b
  | .key => if b = 0x22 then t.lexKey else t.fail (.unexpected b .key)
  | .firstKey =>
    if b = 0x7d then .ok (t.closeContainer .objectEnd)
    else if b = 0x22 then t.lexKey
    else t.fail (.unexpected b .key)
  | .colon => t.fail (.unexpected b .colon)
  | .commaOrClose =>
    match t.stack with
    | .object :: _ =>
      if b = 0x7d then .ok (t.closeContainer .objectEnd) else t.fail (.unexpected b .commaOrClose)
    | .array :: _ =>
      if b = 0x5d then .ok (t.closeContainer .arrayEnd) else t.fail (.unexpected b .commaOrClose)
    | [] => t.fail (.unexpected b .commaOrClose)
  | .finished => t.fail (.unexpected b .nothing)

/-! ### Pulling -/

/-- What may come after a separator, if the first byte is one that may stand here. -/
def separator? (t : Tokenizer) : Option Expect :=
  match t.buffer, t.expect, t.stack with
  | b :: _, .colon, _ => if b = 0x3a then some .value else none
  | b :: _, .commaOrClose, .object :: _ => if b = 0x2c then some .key else none
  | b :: _, .commaOrClose, .array :: _ => if b = 0x2c then some .value else none
  | _, _, _ => none

/-- Uses blanks, a colon or comma, and the blanks behind it. -/
def skipSeparator (t : Tokenizer) : Tokenizer :=
  let t := t.skipBlanks
  match t.separator? with
  | some expect => { t.advance 1 with expect := expect }.skipBlanks
  | none => t

/-- Reads the token at the first byte. -/
def lex (t : Tokenizer) : Except TokenError (TokenizerStep × Tokenizer) :=
  match t.buffer with
  | [] =>
    if !t.ended then .ok (.needMore, t)
    else if t.expect = .finished then .ok (.finished, t)
    else t.fail .endOfInput
  | b :: _ => t.lexNext b

/-- Gives the next event, or tells that the bytes do not suffice, or that the text is at its end. -/
def pull (t : Tokenizer) : Except TokenError (TokenizerStep × Tokenizer) :=
  t.skipSeparator.lex

end Tokenizer

end EntityDump
