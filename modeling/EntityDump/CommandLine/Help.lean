import EntityDump.CommandLine.Grammar
/-!
# Help

What is shown when a command line is not run: the verbs with what they take, or what is wrong.
-/

namespace EntityDump.CommandLine

/-- The version that is shown. -/
def versionText : String := "0.1.0"

/-- What is wrong with a command line. -/
def UsageError.message : UsageError → String
  | help => "help was asked for"
  | version => "the version was asked for"
  | nothingGiven => "no verb was given"
  | unknownVerb => "there is no such verb"
  | missingVerb => "no verb was given"
  | unknownArgument => "an argument is not known here"
  | invalidValue => "a value is missing or not allowed"
  | malformedValue => "a value cannot be read"
  | unexpectedValue => "a switch has no value"
  | repeatedArgument => "an argument is given twice"
  | missingArgument => "an argument is missing"

/-- An option or switch as it is written. -/
def Flag.usage (flag : Flag) : String :=
  let long := "--" ++ flag.name ++ (if flag.takes.isSome then " <VALUE>" else "")
  if flag.required then long else "[" ++ long ++ "]"

/-- A positional argument as it is written. -/
def Positional.usage (p : Positional) : String :=
  if p.repeatable then "[" ++ p.name ++ "]..." else "<" ++ p.name ++ ">"

/-- A verb with its arguments. -/
def Verb.usage (verb : Verb) : String :=
  " ".intercalate (verb.name :: verb.positionals.map Positional.usage ++ verb.flags.map Flag.usage)

/-- All verbs with what they do. -/
def helpText : String :=
  let lines := Verb.all.flatMap fun verb => ["  " ++ verb.usage, "      " ++ verb.summary]
  let options := globalFlags.map fun flag => "  " ++ flag.usage
  "\n".intercalate (["Verbs:"] ++ lines ++ ["Options:"] ++ options) ++ "\n"

end EntityDump.CommandLine
