import EntityDump.CommandLine.Grammar
/-!
# Matching arguments

The arguments of a command line are matched one by one against the grammar. The value of an option or of a
positional argument is read only when the next argument begins, or at the end; so of two faults the one that
is noticed first in this order counts. Behind a lone pair of dashes every argument is positional.
-/

namespace EntityDump.CommandLine

/-! ### The form of an argument -/

/-- What an argument looks like. -/
inductive Token where
  /-- Two dashes alone. -/
  | escape
  /-- Two dashes and a name, with what stands behind an equals sign. -/
  | long (name : String) (value : Option String)
  /-- A dash and letters. -/
  | short (letters : List Char)
  | plain
  deriving DecidableEq, Repr

/-- A name behind two dashes, cut at the first equals sign. -/
def Token.ofLong (s : List Char) : Token :=
  let name := String.ofList (s.takeWhile (· != '='))
  match s.dropWhile (· != '=') with
  | [] => long name none
  | _ :: value => long name (some (String.ofList value))

/-- The form of an argument. -/
def Token.of (arg : String) : Token :=
  match arg.toList with
  | ['-'] => plain
  | ['-', '-'] => escape
  | '-' :: '-' :: rest => .ofLong rest
  | '-' :: letters => short letters
  | _ => plain

/-! ### What has been matched -/

/-- An argument whose value has not been read. -/
structure Pending where
  name : String
  kind : ValueKind
  repeatable : Bool
  /-- Whatever comes next is the value. -/
  takesAnything : Bool := false
  /-- The value, if it is there already. -/
  value : Option String
  deriving DecidableEq, Repr

/-- The arguments matched so far. -/
structure Matching where
  /-- The values read, by the names of the arguments, in order. -/
  found : List (String × Value) := []
  pending : Option Pending := none
  /-- The number of the next positional argument. -/
  position : Nat := 0
  /-- Two dashes have come. -/
  positionalOnly : Bool := false

namespace Matching

/-- An option waits for its value. -/
def isAwaiting (m : Matching) : Bool :=
  m.pending.any fun p => p.value.isNone

/-- Whatever comes next is the value of an option. -/
def takesAnything (m : Matching) : Bool :=
  m.pending.any fun p => p.value.isNone && p.takesAnything

/-- Notes a value. What is not repeatable may be there only once. -/
def enter (m : Matching) (name : String) (repeatable : Bool) (value : Except UsageError Value) :
    Except UsageError Matching :=
  if !repeatable && m.found.any fun entry => entry.1 == name then .error .repeatedArgument
  else value.map fun value => { m with found := m.found ++ [(name, value)] }

/-- Reads the value that is pending. -/
def settle (m : Matching) : Except UsageError Matching :=
  match m.pending with
  | none => .ok m
  | some p =>
    match p.value with
    | none => .error .invalidValue
    | some value => { m with pending := none }.enter p.name p.repeatable (p.kind.read value)

/-- Takes a switch. -/
def set (m : Matching) (flag : Flag) : Except UsageError Matching := do
  (← m.settle).enter flag.name flag.repeatable (.ok .set)

/-- Takes an option with its value. -/
def attach (m : Matching) (flag : Flag) (kind : ValueKind) (value : String) :
    Except UsageError Matching := do
  (← m.settle).enter flag.name flag.repeatable (kind.read value)

/-- Takes an option whose value is still to come. -/
def await (m : Matching) (flag : Flag) (kind : ValueKind) : Except UsageError Matching := do
  let pending : Pending := ⟨flag.name, kind, flag.repeatable, flag.takesAnything, none⟩
  return { ← m.settle with pending := some pending }

/-- Takes the value of the option that waits for it. -/
def supply (m : Matching) (value : String) : Matching :=
  { m with pending := m.pending.map fun p => { p with value := some value } }

/-- Takes a positional argument. -/
def place (m : Matching) (p : Positional) (value : String) : Except UsageError Matching := do
  let pending : Pending := ⟨p.name, p.kind, p.repeatable, false, some value⟩
  return { ← m.settle with
    pending := some pending
    position := if p.repeatable then m.position else m.position + 1 }

/-- Ends with a fault, unless a pending value has one. -/
def stop (m : Matching) (fault : UsageError) : Except UsageError Matching := do
  let _ ← m.settle
  throw fault

end Matching

/-! ### One level of the grammar -/

/-- What can stand at one level: before the verb, or behind it. -/
structure Level where
  flags : List Flag
  positionals : List Positional
  /-- A verb is to come. -/
  isRoot : Bool

namespace Level

/-- Before the verb. -/
def root : Level := ⟨globalFlags, [], true⟩

/-- Behind a verb. -/
def behind (verb : Verb) : Level := ⟨verb.flags ++ globalFlags, verb.positionals, false⟩

/-- Takes a name behind two dashes. -/
def takeLong (level : Level) (m : Matching) (name : String) (value : Option String) :
    Except UsageError Matching :=
  let plea : Option UsageError :=
    if name == "help" then some .help
    else if name == "version" && level.isRoot then some .version
    else none
  match plea, value with
  | some _, some _ => .error .unexpectedValue
  | some plea, none => m.stop plea
  | none, _ =>
    match level.flags.find? fun flag => flag.name == name with
    | none => .error .unknownArgument
    | some flag =>
      match flag.takes, value with
      | some kind, some value => m.attach flag kind value
      | some kind, none => m.await flag kind
      | none, some _ => .error .unexpectedValue
      | none, none => m.set flag

/-- Takes letters behind a dash. What follows the letter of an option is its value, an equals sign between
them apart. -/
def takeShort (level : Level) (m : Matching) : List Char → Except UsageError Matching
  | [] => .ok m
  | c :: rest =>
    if c = 'h' then m.stop .help
    else if c = 'V' && level.isRoot then m.stop .version
    else
      match level.flags.find? fun flag => flag.short == some c with
      | none => .error .unknownArgument
      | some flag =>
        match flag.takes, rest with
        | none, rest =>
          match m.set flag with
          | .ok m => takeShort level m rest
          | .error e => .error e
        | some kind, [] => m.await flag kind
        | some kind, '=' :: value => m.attach flag kind (String.ofList value)
        | some kind, value => m.attach flag kind (String.ofList value)

/-- The name of a verb, or the word that asks for help. -/
def isVerbName (arg : String) : Bool :=
  arg == "help" || (Verb.ofName? arg).isSome

/-- Takes a positional argument, if there is a place for it. -/
def takePositional (level : Level) (m : Matching) (arg : String) : Except UsageError Matching :=
  match level.positionals[m.position]? with
  | some p => m.place p arg
  | none =>
    if level.isRoot && !(m.positionalOnly && isVerbName arg) then .error .unknownVerb
    else .error .unknownArgument

/-- Takes an argument. -/
def take (level : Level) (m : Matching) (arg : String) : Except UsageError Matching :=
  if m.positionalOnly then level.takePositional m arg
  else if m.takesAnything then .ok (m.supply arg)
  else
    match Token.of arg with
    | .escape => .ok { m with positionalOnly := true }
    | .long name value => level.takeLong m name value
    | .short letters => level.takeShort m letters
    | .plain => if m.isAwaiting then .ok (m.supply arg) else level.takePositional m arg

/-- A verb can stand here. -/
def expectsVerb (level : Level) (m : Matching) : Bool :=
  level.isRoot && !m.positionalOnly && !m.isAwaiting

/-- What comes of asking for help on some words. -/
def helpOn : List String → UsageError
  | [] => .help
  | [word] => if isVerbName word then .help else .unknownVerb
  | _ => .unknownVerb

/-- Takes arguments up to a verb; gives it with what follows. -/
def takeAll (level : Level) (m : Matching) :
    List String → Except UsageError (Matching × Option (Verb × List String))
  | [] => .ok (m, none)
  | arg :: rest =>
    let next : Except UsageError (Matching × Option (Verb × List String)) :=
      match level.take m arg with
      | .ok m => takeAll level m rest
      | .error e => .error e
    if level.expectsVerb m then
      if arg == "help" then .error (helpOn rest)
      else
        match Verb.ofName? arg with
        | some verb => .ok (m, some (verb, rest))
        | none => next
    else next

/-- Everything that has to be given is there. -/
def isComplete (level : Level) (m : Matching) : Bool :=
  let isFound (name : String) : Bool := m.found.any fun entry => entry.1 == name
  (level.positionals.all fun p => p.repeatable || isFound p.name) &&
    level.flags.all fun flag => !flag.required || isFound flag.name

end Level

/-! ### A whole command line -/

/-- A verb with the values of its arguments. -/
structure Arguments where
  verb : Verb
  /-- The values given behind the verb, then those given before it. -/
  values : List (String × Value)

/-- Matches a command line. A fault behind the verb counts before one in the last value before it. -/
def Arguments.ofList (args : List String) : Except UsageError Arguments := do
  let (before, verb) ← Level.root.takeAll {} args
  match verb with
  | none =>
    let before ← before.settle
    if before.found.isEmpty then throw .nothingGiven else throw .missingVerb
  | some (verb, rest) =>
    let level := Level.behind verb
    let (behind, _) ← level.takeAll {} rest
    let behind ← behind.settle
    if !level.isComplete behind then throw .missingArgument
    let before ← before.settle
    return ⟨verb, behind.found ++ before.found⟩

namespace Arguments

/-- The first value of an argument. -/
def value? (a : Arguments) (name : String) : Option Value :=
  a.values.lookup name

/-- The switch is given. -/
def isSet (a : Arguments) (name : String) : Bool :=
  (a.value? name).isSome

/-- All values of an argument that are of some kind. -/
def all {α : Type} (a : Arguments) (name : String) (select : Value → Option α) : List α :=
  (a.values.filter fun entry => entry.1 == name).filterMap fun entry => select entry.2

end Arguments

/-- A text. -/
def Value.text? : Value → Option String
  | text s => some s
  | _ => none

/-- A number below `2^64`. -/
def Value.word? : Value → Option Nat
  | word n => some n
  | _ => none

/-- A decimal fraction. -/
def Value.decimal? : Value → Option Float
  | decimal x => some x
  | _ => none

/-- A format. -/
def Value.format? : Value → Option Format
  | format f => some f
  | _ => none

/-- An aggregate function. -/
def Value.function? : Value → Option AggregateFunction
  | function f => some f
  | _ => none

namespace Arguments

/-- The text given for an argument. -/
def text? (a : Arguments) (name : String) : Option String :=
  (a.value? name).bind Value.text?

/-- The number given for an argument. -/
def word? (a : Arguments) (name : String) : Option Nat :=
  (a.value? name).bind Value.word?

/-- All texts given for an argument. -/
def texts (a : Arguments) (name : String) : List String :=
  a.all name Value.text?

end Arguments

end EntityDump.CommandLine
