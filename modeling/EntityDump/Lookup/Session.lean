import EntityDump.Error
import EntityDump.Json.Printer
import EntityDump.Lookup.Response
/-!
# Sessions with a knowledge base

A knowledge base is asked for the names of types, one after another. Requests are numbered from one. Each
request consumes lines of the knowledge base up to the first one that answers it; blank lines, lines that
are no response and responses to other requests are passed over.
-/

namespace EntityDump

/-- What a knowledge base prints. -/
structure KnowledgeBase where
  output : List UInt8 := []
  /-- The output stays open behind what is printed. -/
  staysOpen : Bool := false

/-- The lines of an output, each with its line break; what follows the last line break is a line if it is
not empty. -/
def outputLines : List UInt8 → List (List UInt8)
  | [] => []
  | b :: rest =>
    if b = 0x0a then [b] :: outputLines rest
    else
      match outputLines rest with
      | [] => [[b]]
      | line :: lines => (b :: line) :: lines

/-- The programs that can be started, by name. -/
abbrev Programs := String → Option KnowledgeBase

/-- A session with a knowledge base. -/
structure Session where
  /-- The lines that have not been read. -/
  lines : List (List UInt8)
  staysOpen : Bool
  /-- How long an answer may take. -/
  limit : Duration
  /-- The number of the next request. -/
  nextId : Nat := 1
  /-- The requests so far, the last one first. -/
  requests : List String := []

namespace Session

/-- Starts a knowledge base. -/
def start (programs : Programs) (config : LookupConfig) : Except Error Session :=
  match config.validate with
  | .error e => .error (.config e)
  | .ok () =>
    match programs config.program with
    | none => .error (.lookup (.notStarted config.program))
    | some base => .ok ⟨outputLines base.output, base.staysOpen, config.requestTimeout, 1, []⟩

/-- The line that asks for a type. -/
def requestLine (id : Nat) (typeName : String) : String :=
  (Json.object [("id", Json.ofNat id), ("method", .string "lookup"),
    ("typeName", .string typeName)]).compact

/-- What a line says to a request, if anything. -/
def reply? (id : Nat) (line : List UInt8) : Option (Except LookupFault (Option Symbol)) :=
  match Text.decodeUtf8 line with
  | .error fault => some (.error (.notText fault))
  | .ok text =>
    match Response.read? (Text.trimmed text) with
    | none => none
    | some response =>
      if !response.answers id then none
      else
        match response.error with
        | some message => some (.error (.refused message))
        | none => some (.ok response.symbol?)

/-- The answer to a request among some lines, with the lines behind it. -/
def firstReply? (id : Nat) : List (List UInt8) →
    Option (Except LookupFault (Option Symbol)) × List (List UInt8)
  | [] => (none, [])
  | line :: rest =>
    match reply? id line with
    | some answer => (some answer, rest)
    | none => firstReply? id rest

/-- What is known of a type, and the session after the answer. -/
def ask (s : Session) (typeName : String) : Except Error (Option Symbol) × Session :=
  let (reply, lines) := firstReply? s.nextId s.lines
  let answer := match reply with
    | some (.ok symbol) => .ok symbol
    | some (.error fault) => .error (.lookup fault)
    | none => if s.staysOpen then .error (.lookupTimeout s.limit) else .error (.lookup .exited)
  (answer, { s with
    lines := lines
    nextId := s.nextId + 1
    requests := requestLine s.nextId typeName :: s.requests })

/-- The requests in the order in which they were made. -/
def requestLines (s : Session) : List String :=
  s.requests.reverse

/-- What comes out for each of some names; the first failure ends it. -/
def askAll : List String → Session → Except Error (List LookupOutcome) × Session
  | [], s => (.ok [], s)
  | typeName :: rest, s =>
    match s.ask typeName with
    | (.error e, s) => (.error e, s)
    | (.ok symbol, s) =>
      let (outcomes, s) := askAll rest s
      (outcomes.map (⟨typeName, symbol⟩ :: ·), s)

/-- The answer for each of some names, failures included. -/
def askEach : List String → Session → List (Except Error (Option Symbol)) × Session
  | [], s => ([], s)
  | typeName :: rest, s =>
    let (answer, s) := s.ask typeName
    let (answers, s) := askEach rest s
    (answer :: answers, s)

end Session

end EntityDump
