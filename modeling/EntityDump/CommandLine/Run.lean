import EntityDump.CommandLine.Command
import EntityDump.Lookup.Session
import EntityDump.Report.Text
/-!
# Running a command line

A command is run on files and programs that are given as values. What it reports goes to the standard
output; a failure goes to the error output, with what was being done and the causes beneath it. The exit
status of a failure is two if other input could succeed, and one otherwise.
-/

namespace EntityDump.CommandLine

/-- What a command line is run on. -/
structure Surroundings where
  directory : Directory
  programs : Programs := fun _ => none
  /-- The seed of samples that fix none. -/
  seed : UInt64 := 0

/-! ### Failures -/

/-- What went wrong, and while doing what. -/
structure Failure where
  message : String
  cause : Option Error := none

namespace Failure

/-- The text of a cause with its lines behind the first one moved to the right. -/
def hanging (blanks : Nat) (s : String) : String :=
  let lines := (Text.splitAt (· == '\n') s.toList).map String.ofList
  ("\n" ++ String.ofList (List.replicate blanks ' ')).intercalate lines

/-- A number on the right of five places. -/
def numbered (n : Nat) : String :=
  let digits := toString n
  String.ofList (List.replicate (5 - digits.length) ' ') ++ digits

/-- The causes, from the nearest to the deepest. -/
def causes (f : Failure) : List String :=
  match f.cause with
  | none => []
  | some e => e.message :: e.causes

/-- The causes as they are listed: numbered, unless there is only one. -/
def causeLines (f : Failure) : List String :=
  match f.causes with
  | [cause] => ["    " ++ hanging 4 cause]
  | causes => causes.mapIdx fun i cause => numbered i ++ ": " ++ hanging 7 cause

/-- The text of a failure. -/
def text (f : Failure) : String :=
  let listed := if f.causes.isEmpty then "" else "\n\nCaused by:\n" ++ "\n".intercalate f.causeLines
  "error: " ++ f.message ++ listed ++ "\n"

/-- The exit status of a failure. -/
def exitCode (f : Failure) : Nat :=
  if f.cause.any Error.isRecoverable then 2 else 1

end Failure

/-- Says what was being done when something went wrong. -/
def during {α : Type} (message : String) (result : Except Error α) : Except Failure α :=
  result.mapError fun e => ⟨message, some e⟩

/-! ### Commands -/

/-- What is being done when a request is answered. -/
def activity (file : String) : Request → String
  | .schema _ => s!"schema of {file}"
  | .sample _ => s!"sampling {file}"
  | .query _ => s!"querying {file}"
  | .count _ => s!"counting {file}"
  | .groupBy path _ => s!"grouping {file} by {path}"
  | .stats path _ => s!"stats of {path} in {file}"
  | .distribution path _ _ => s!"distribution of {path} in {file}"
  | .aggregate _ _ => s!"aggregating {file}"
  | .relationships right _ => s!"relationships between {file} and {right.path}"
  | .join right _ => s!"joining {file} with {right.path}"

/-- The path of the names of types. -/
def typePath : String := "payload.$type"

/-- The name of a type without what stands behind a comma. -/
def bareTypeName (key : String) : String :=
  String.ofList (Text.trim (key.toList.takeWhile (· != ',')))

/-- Adds the names of types that are not there yet. -/
def addTypeNames (names keys : List String) : List String :=
  let named := keys.filter fun key => key != missingKey && key != nullKey
  named.foldl
    (fun names key =>
      let name := bareTypeName key
      if names.contains name then names else names ++ [name])
    names

/-- The names of the types that a scan finds, the most frequent first. -/
def scannedTypes (s : Surroundings) (scan : Scan) : Except Error (List String) := do
  let engine ← Engine.validated scan.config s.directory
  let result ← engine.groupBy scan.source typePath none
  return result.groups.map (·.1)

/-- Looks up types. -/
def lookUp (s : Surroundings) (names : List String) (types : Option Scan) (config : LookupConfig) :
    Except Failure Report := do
  let keys ← match types with
    | none => pure []
    | some scan => during s!"collecting types from {scan.source.path}" (scannedTypes s scan)
  let names := addTypeNames names keys
  if names.isEmpty then throw ⟨"no type names given; pass names or --from <file>", none⟩
  let session ← during s!"starting {config.program}" (Session.start s.programs config)
  let outcomes ← during "type lookup" (session.askAll names).1
  return .lookups outcomes

/-- Runs a command. -/
def Command.run (s : Surroundings) : Command → Except Failure Report
  | ask scan request =>
    during (activity scan.source.path request) (scan.run s.directory s.seed request)
  | lookup names types config => lookUp s names types config

/-! ### Command lines -/

/-- What running a command line leaves behind. -/
structure Outcome where
  output : String := ""
  errorOutput : String := ""
  exitCode : Nat := 0
  deriving DecidableEq, Repr

/-- Runs a command and shows its report. -/
def Invocation.run (s : Surroundings) (i : Invocation) : Outcome :=
  match i.command.run s with
  | .ok report => { output := report.render i.format }
  | .error failure => { errorOutput := failure.text, exitCode := failure.exitCode }

/-- Runs a command line. -/
def run (s : Surroundings) (args : List String) : Except UsageError Outcome :=
  (Invocation.ofList args).map (Invocation.run s)

end EntityDump.CommandLine
