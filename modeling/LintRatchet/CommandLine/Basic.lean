/-!
# Command lines

A command line has options that every command takes, a command, and options of
that command.  This is what is left of it once it has been read.
-/

namespace LintRatchet

/-- How a summary is printed. -/
inductive SummaryFormat where
  | text
  | json
deriving DecidableEq, Repr, Inhabited

/-- Where the report comes from. -/
structure ReportOptions where
  /-- The file that holds the report, or `-` for the standard input.  Without it the linter is
  run. -/
  input : Option String := none
  linterVersion : Option String := none
deriving DecidableEq, Repr

/-- The options of a check. -/
structure CheckOptions extends ReportOptions where
  /-- The linter is to mend what it can. -/
  fix : Bool := false
  skipBaselineUpdate : Bool := false
  failOnImprovement : Bool := false
  strict : Bool := false
  out : Option String := none
deriving DecidableEq, Repr

/-- What is to be done. -/
inductive Command where
  | check (options : CheckOptions)
  | init (options : ReportOptions)
  | update (options : ReportOptions)
  | clear
  | status (format : SummaryFormat)
deriving DecidableEq, Repr

/-- A command line. -/
structure CommandLine where
  verbose : Bool := false
  debug : Bool := false
  config : Option String := none
  baseline : Option String := none
  command : Command
deriving DecidableEq, Repr

/-- Why arguments are no command line. -/
inductive UsageProblem where
  | help
  | nothing
  | noCommand
  | unknownCommand
  /-- There is no such option, or no place for the argument. -/
  | unknownArgument
  | repeated
  /-- An option lacks its value, or the value is not one it takes. -/
  | badValue
  /-- A switch is given a value. -/
  | unwantedValue
deriving DecidableEq, Repr, Inhabited

/-- The status that the process ends with. -/
def UsageProblem.exitCode : UsageProblem → Nat
  | help => 0
  | _ => 2

end LintRatchet
