import EntityDump.CommandLine.Help
import EntityDump.CommandLine.Run
/-!
# The program

Reads the files that a command line names, runs it and prints what it leaves behind. No program can be
started from here, so lookups find no knowledge base.
-/

open EntityDump EntityDump.CommandLine

/-- The files that are there of those named. -/
def readFiles (paths : List String) : IO Directory := do
  let mut files := []
  for path in paths do
    try
      let bytes ← IO.FS.readBinFile path
      files := (path, bytes.toList) :: files
    catch _ => pure ()
  return ⟨files⟩

/-- Shows why a command line is not run. -/
def showUsage (e : UsageError) : IO Unit := do
  match e with
  | .help => IO.print helpText
  | .version => IO.println versionText
  | e =>
    IO.eprintln ("error: " ++ e.message)
    IO.eprint helpText

/-- Runs a command line. -/
def main (args : List String) : IO UInt32 := do
  match Invocation.ofList args with
  | .error e =>
    showUsage e
    return UInt32.ofNat e.exitCode
  | .ok invocation =>
    let directory ← readFiles invocation.command.files
    let seed ← IO.rand 0 (Nat.pow 2 62)
    let outcome := invocation.run { directory := directory, seed := UInt64.ofNat seed }
    IO.print outcome.output
    IO.eprint outcome.errorOutput
    return UInt32.ofNat outcome.exitCode
