import EntityDump.Config
import EntityDump.Text.Utf8
import EntityDump.Tokenizer.Fault
/-!
# Errors

What can go wrong when a dump is asked, as causes, and their wording, kind and weight.
-/

namespace EntityDump

/-- Why a path expression is refused. Positions count bytes from the beginning of the trimmed text. -/
inductive PathFault where
  | emptyKey (position : Nat)
  | endsWithDot
  | unclosedBracket (position : Nat)
  | unexpectedBracket (position : Nat)
  /-- Something other than a dot or bracket follows a closing bracket. -/
  | afterBracket (position : Nat)
  /-- The text between brackets is no star, index or quoted key. -/
  | unsupportedSelector (inner : String)
  deriving DecidableEq, Repr

/-- The wording of a fault in a path expression. -/
def PathFault.message : PathFault → String
  | emptyKey position => s!"empty key before '.' at position {position}"
  | endsWithDot => "path ends with '.'"
  | unclosedBracket position => s!"unclosed '[' at position {position}"
  | unexpectedBracket position => s!"unexpected ']' at position {position}"
  | afterBracket position => s!"expected '.' or '[' after ']' at position {position}"
  | unsupportedSelector inner => s!"unsupported bracket selector '[{inner}]'"

/-- Why an argument is refused. -/
inductive ArgumentFault where
  | noBuckets
  | unknownFunction (name : String)
  deriving DecidableEq, Repr

/-- The wording of a fault in an argument. -/
def ArgumentFault.message : ArgumentFault → String
  | noBuckets => "bucket count must be greater than zero"
  | unknownFunction name => s!"unknown aggregate function '{name}'"

/-- Why a lookup failed. -/
inductive LookupFault where
  /-- The program is not there. -/
  | notStarted (program : String)
  /-- The knowledge base closed its output before it answered. -/
  | exited
  /-- A line of the knowledge base is not UTF-8. -/
  | notText (fault : Text.Utf8Fault)
  /-- The knowledge base answered with an error. -/
  | refused (message : String)
  deriving DecidableEq, Repr

/-- The operating system's wording for a file that is not there. -/
def notFoundText : String := "No such file or directory (os error 2)"

/-- The wording of a fault of a lookup. -/
def LookupFault.message : LookupFault → String
  | notStarted program => s!"failed to start '{program}': {notFoundText}"
  | exited => "lookup process exited before responding"
  | notText fault => s!"failed to read response: {fault.message}"
  | refused message => message

/-- What can go wrong. -/
inductive Error where
  /-- A file is not there. -/
  | missingFile (path : String)
  /-- A file is not JSON. -/
  | malformed (path : String) (error : TokenError)
  /-- A document that holds no value. -/
  | noValue (path : String) (offset : Nat)
  | invalidPath (expression : String) (fault : PathFault)
  | invalidFilter (expression : String)
  | invalidArgument (fault : ArgumentFault)
  | config (error : ConfigError)
  /-- No pair of fields of two dumps fits. -/
  | noRelationship (left right : String)
  | lookup (fault : LookupFault)
  | lookupTimeout (limit : Duration)

/-- The kinds of errors. -/
inductive ErrorKind where
  | io
  | parse
  | invalidInput
  | notFound
  | lookup
  deriving DecidableEq, Repr

namespace Error

/-- The wording of an error. -/
def message : Error → String
  | missingFile path => s!"failed to read {path}: {notFoundText}"
  | malformed path error => s!"malformed JSON in {path} at byte {error.offset}: {error.fault.message}"
  | noValue path offset => s!"malformed JSON in {path} at byte {offset}: document contains no value"
  | invalidPath expression fault => s!"invalid path expression '{expression}': {fault.message}"
  | invalidFilter expression => s!"invalid filter expression '{expression}'"
  | invalidArgument fault => s!"invalid argument: {fault.message}"
  | config error => error.message
  | noRelationship left right =>
    s!"no relationship detected between {left} and {right}; pass explicit left and right keys"
  | lookup fault => s!"type lookup failed: {fault.message}"
  | lookupTimeout limit => s!"type lookup timed out after {limit.text}"

/-- The kind of an error. -/
def kind : Error → ErrorKind
  | missingFile _ => .io
  | malformed _ _ => .parse
  | noValue _ _ => .parse
  | invalidPath _ _ => .invalidInput
  | invalidFilter _ => .invalidInput
  | invalidArgument _ => .invalidInput
  | config _ => .invalidInput
  | noRelationship _ _ => .notFound
  | lookup _ => .lookup
  | lookupTimeout _ => .lookup

/-- The data itself is at fault. -/
def isFatal (e : Error) : Bool :=
  e.kind = .io || e.kind = .parse

/-- Other input could succeed. -/
def isRecoverable (e : Error) : Bool :=
  e.kind = .invalidInput || e.kind = .notFound

/-- The error is a time limit that ran out. -/
def isTimeout : Error → Bool
  | lookupTimeout _ => true
  | _ => false

/-- The wordings of the causes that lie beneath an error. -/
def causes : Error → List String
  | missingFile _ => [notFoundText]
  | _ => []

end Error

end EntityDump
