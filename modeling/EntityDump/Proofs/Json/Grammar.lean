import EntityDump.Json.NumberToken
import EntityDump.Json.StringToken
import EntityDump.Proofs.Json.Document
/-!
# The grammar of JSON

The grammar of RFC 8259 over bytes. A string token and a number token have a value only if the decoders of
tokens give one: halves of surrogate pairs and numbers beyond a double are grammatical, and without a value.

`IsText` says that bytes are blanks, a value and blanks, and which document they denote.
-/

namespace EntityDump.Json.Grammar

/-! ### White space -/

/-- `%x20 / %x09 / %x0A / %x0D`. -/
def IsBlankByte (b : UInt8) : Prop :=
  b = 0x20 ∨ b = 0x09 ∨ b = 0x0a ∨ b = 0x0d

/-- `ws = *( %x20 / %x09 / %x0A / %x0D )`. -/
def IsBlank (s : List UInt8) : Prop :=
  ∀ b ∈ s, IsBlankByte b

/-! ### Numbers -/

/-- `DIGIT = %x30-39`. -/
def IsDigit (b : UInt8) : Prop :=
  0x30 ≤ b ∧ b ≤ 0x39

/-- `1*DIGIT`. -/
def IsDigits (s : List UInt8) : Prop :=
  s ≠ [] ∧ ∀ b ∈ s, IsDigit b

/-- `int = zero / ( digit1-9 *DIGIT )`. -/
def IsInt (s : List UInt8) : Prop :=
  IsDigits s ∧ (s.head? = some 0x30 → s.length = 1)

/-- `[ frac ]`, where `frac = decimal-point 1*DIGIT`. -/
inductive IsFraction : List UInt8 → Prop
  | absent : IsFraction []
  | present {digits : List UInt8} : IsDigits digits → IsFraction (0x2e :: digits)

/-- `[ minus / plus ]`. -/
def IsSign (s : List UInt8) : Prop :=
  s = [] ∨ s = [0x2d] ∨ s = [0x2b]

/-- `[ exp ]`, where `exp = e [ minus / plus ] 1*DIGIT`. -/
inductive IsExponent : List UInt8 → Prop
  | absent : IsExponent []
  | present {e : UInt8} {sign digits : List UInt8} : e = 0x65 ∨ e = 0x45 → IsSign sign →
      IsDigits digits → IsExponent (e :: (sign ++ digits))

/-- `number = [ minus ] int [ frac ] [ exp ]`. -/
inductive IsNumber : List UInt8 → Prop
  | mk {minus whole fraction exponent : List UInt8} : minus = [] ∨ minus = [0x2d] → IsInt whole →
      IsFraction fraction → IsExponent exponent →
      IsNumber (minus ++ (whole ++ (fraction ++ exponent)))

/-! ### Strings -/

/-- `HEXDIG`, in either case. -/
def IsHexDigit (b : UInt8) : Prop :=
  IsDigit b ∨ (0x41 ≤ b ∧ b ≤ 0x46) ∨ (0x61 ≤ b ∧ b ≤ 0x66)

/-- The letters of the escapes of two characters. -/
def escapeLetters : List UInt8 :=
  [0x22, 0x5c, 0x2f, 0x62, 0x66, 0x6e, 0x72, 0x74]

/-- `*char`, in UTF-8. -/
inductive IsChars : List UInt8 → Prop
  | nil : IsChars []
  /-- `unescaped = %x20-21 / %x23-5B / %x5D-10FFFF`. -/
  | unescaped {c : Char} {s : List UInt8} : 0x20 ≤ c.toNat → c ≠ '"' → c ≠ '\\' → IsChars s →
      IsChars (String.utf8EncodeChar c ++ s)
  | escape {b : UInt8} {s : List UInt8} : b ∈ escapeLetters → IsChars s → IsChars (0x5c :: b :: s)
  | hex {a b c d : UInt8} {s : List UInt8} : IsHexDigit a → IsHexDigit b → IsHexDigit c →
      IsHexDigit d → IsChars s → IsChars (0x5c :: 0x75 :: a :: b :: c :: d :: s)

/-- `string = quotation-mark *char quotation-mark`. -/
inductive IsString : List UInt8 → Prop
  | mk {chars : List UInt8} : IsChars chars → IsString (0x22 :: (chars ++ [0x22]))

/-! ### Tokens with a value -/

/-- A string token whose text is the given one. -/
def IsStringOf (token : List UInt8) (text : String) : Prop :=
  IsString token ∧ StringToken.decode token = .ok text

/-- A number token whose value is the given number. -/
def IsNumberOf (token : List UInt8) (n : Number) : Prop :=
  IsNumber token ∧ Number.decode? (token.map fun b => Char.ofNat b.toNat) = some n

/-- A token of a scalar. -/
inductive IsScalar : List UInt8 → Scalar → Prop
  /-- `null = %x6e.75.6c.6c`. -/
  | null : IsScalar [0x6e, 0x75, 0x6c, 0x6c] .null
  /-- `true = %x74.72.75.65`. -/
  | true : IsScalar [0x74, 0x72, 0x75, 0x65] (.bool Bool.true)
  /-- `false = %x66.61.6c.73.65`. -/
  | false : IsScalar [0x66, 0x61, 0x6c, 0x73, 0x65] (.bool Bool.false)
  | number {token : List UInt8} {n : Number} : IsNumberOf token n → IsScalar token (.number n)
  | string {token : List UInt8} {text : String} : IsStringOf token text →
      IsScalar token (.string text)

/-! ### Values -/

/-- What a part of a text may denote. -/
inductive Phrase where
  | value (d : Document)
  /-- A value and the blanks around it. -/
  | element (d : Document)
  /-- The items between the brackets of an array, at least one. -/
  | items (items : List Document)
  /-- A key and its value, and the blanks around them. -/
  | member (key : String) (d : Document)
  /-- The members between the braces of an object, at least one. -/
  | members (fields : List (String × Document))

/-- The bytes are a phrase of the grammar. -/
inductive Derives : List UInt8 → Phrase → Prop
  | scalar {token : List UInt8} {s : Scalar} : IsScalar token s → Derives token (.value (.scalar s))
  | emptyArray {blank : List UInt8} : IsBlank blank →
      Derives (0x5b :: (blank ++ [0x5d])) (.value (.array []))
  /-- `array = begin-array [ value *( value-separator value ) ] end-array`. -/
  | array {text : List UInt8} {items : List Document} : Derives text (.items items) →
      Derives (0x5b :: (text ++ [0x5d])) (.value (.array items))
  | emptyObject {blank : List UInt8} : IsBlank blank →
      Derives (0x7b :: (blank ++ [0x7d])) (.value (.object []))
  /-- `object = begin-object [ member *( value-separator member ) ] end-object`. -/
  | object {text : List UInt8} {fields : List (String × Document)} :
      Derives text (.members fields) → Derives (0x7b :: (text ++ [0x7d])) (.value (.object fields))
  /-- `ws value ws`. -/
  | element {before text after : List UInt8} {d : Document} : IsBlank before →
      Derives text (.value d) → IsBlank after → Derives (before ++ (text ++ after)) (.element d)
  | lastItem {text : List UInt8} {d : Document} : Derives text (.element d) →
      Derives text (.items [d])
  | item {text rest : List UInt8} {d : Document} {items : List Document} :
      Derives text (.element d) → Derives rest (.items items) →
      Derives (text ++ 0x2c :: rest) (.items (d :: items))
  /-- `member = string name-separator value`. -/
  | member {before token after text : List UInt8} {key : String} {d : Document} :
      IsBlank before → IsStringOf token key → IsBlank after → Derives text (.element d) →
      Derives (before ++ (token ++ (after ++ 0x3a :: text))) (.member key d)
  | lastField {text : List UInt8} {key : String} {d : Document} : Derives text (.member key d) →
      Derives text (.members [(key, d)])
  | field {text rest : List UInt8} {key : String} {d : Document}
      {fields : List (String × Document)} :
      Derives text (.member key d) → Derives rest (.members fields) →
      Derives (text ++ 0x2c :: rest) (.members ((key, d) :: fields))

/-- `JSON-text = ws value ws`, where the value denotes the given document. -/
def IsText (bytes : List UInt8) (d : Document) : Prop :=
  Derives bytes (.element d)

end EntityDump.Json.Grammar
