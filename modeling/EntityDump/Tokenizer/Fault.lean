import EntityDump.Json.StringToken
/-!
# Faults of malformed JSON

Why a text is not JSON, as causes with their wording, and where.
-/

namespace EntityDump

/-- The kinds of tokens whose length is not known when they begin. -/
inductive TokenKind where
  | string
  | number
  deriving DecidableEq, Repr

/-- The name of a kind of token. -/
def TokenKind.name : TokenKind → String
  | string => "string"
  | number => "number"

/-- What would have been right in place of an unexpected byte. -/
inductive Expectation where
  | value
  | key
  | colon
  | commaOrClose
  | nothing
  deriving DecidableEq, Repr

/-- The wording of an expectation. -/
def Expectation.message : Expectation → String
  | value => "expected a JSON value"
  | key => "expected an object key"
  | colon => "expected ':'"
  | commaOrClose => "expected ',' or a closing bracket"
  | nothing => "trailing characters after the JSON value"

/-- The words that are scalars. -/
inductive LiteralWord where
  | trueWord
  | falseWord
  | nullWord
  deriving DecidableEq, Repr

/-- The spelling of a word. -/
def LiteralWord.text : LiteralWord → String
  | trueWord => "true"
  | falseWord => "false"
  | nullWord => "null"

/-- The bytes of a word. -/
def LiteralWord.bytes : LiteralWord → List UInt8
  | trueWord => [0x74, 0x72, 0x75, 0x65]
  | falseWord => [0x66, 0x61, 0x6c, 0x73, 0x65]
  | nullWord => [0x6e, 0x75, 0x6c, 0x6c]

/-- Why a text is not JSON. -/
inductive TokenFault where
  /-- The text ends before the value does. -/
  | endOfInput
  /-- The text ends inside `true`, `false` or `null`. -/
  | endInLiteral
  /-- A byte that cannot stand there. -/
  | unexpected (byte : UInt8) (expectation : Expectation)
  /-- A string whose content cannot be decoded, and the line and column inside it. -/
  | badString (fault : Json.StringFault) (line column : Nat)
  /-- A run of number characters that is no number. -/
  | badNumber (text : String)
  /-- A word that begins like the given one and goes on differently. -/
  | badLiteral (word : LiteralWord)
  /-- The text ends inside a token. -/
  | unterminated (kind : TokenKind)
  /-- An unfinished token is longer than allowed. -/
  | tooLong (kind : TokenKind) (limit : Nat)
  deriving DecidableEq, Repr

/-- A byte as it is shown in a message: printable ASCII in quotes, any other byte by its number. -/
def shownByte (b : UInt8) : String :=
  if 0x21 ≤ b && b ≤ 0x7e then String.ofList ['\'', Char.ofNat b.toNat, '\'']
  else String.ofList ("byte 0x".toList ++ [Nat.digitChar (b.toNat / 16), Nat.digitChar (b.toNat % 16)])

/-- The wording of a fault. -/
def TokenFault.message : TokenFault → String
  | endOfInput => "unexpected end of input"
  | endInLiteral => "unexpected end of input inside a literal"
  | unexpected byte expectation => s!"unexpected {shownByte byte}, {expectation.message}"
  | badString fault line column =>
    s!"invalid string literal: {fault.message} at line {line} column {column}"
  | badNumber text => s!"invalid number '{text}'"
  | badLiteral word => s!"invalid literal, expected '{word.text}'"
  | unterminated kind => s!"unterminated {kind.name}"
  | tooLong kind limit => s!"{kind.name} token exceeds {limit} bytes"

/-- A fault and the number of bytes before the token where it was found. -/
structure TokenError where
  offset : Nat
  fault : TokenFault
  deriving DecidableEq, Repr

/-- The wording of a fault with its place. -/
def TokenError.message (e : TokenError) : String :=
  s!"{e.fault.message} at byte {e.offset}"

end EntityDump
