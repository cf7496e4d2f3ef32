import LintRatchet.CommandLine.Basic

/-!
# The options of each command

A *switch* is given or not.  A *parameter* has a value.  Some of both are taken
in two *scopes*: before the command's name and after it.
-/

namespace LintRatchet.CommandLine

/-- An option without a value. -/
inductive Switch where
  | verbose
  | debug
  | fix
  | skipBaselineUpdate
  | failOnImprovement
  | strict
deriving DecidableEq, Repr

/-- An option with a value. -/
inductive Parameter where
  | config
  | baseline
  | input
  | linterVersion
  | out
  | format
deriving DecidableEq, Repr

/-- What an option does. -/
inductive OptionKind where
  | help
  | switch (s : Switch)
  | parameter (p : Parameter)
deriving DecidableEq, Repr

/-- The name of a command. -/
inductive CommandName where
  | check
  | init
  | update
  | clear
  | status
deriving DecidableEq, Repr

/-- Where in the command line an argument stands. -/
inductive Scope where
  /-- Before the command's name. -/
  | top
  /-- After the command's name. -/
  | command (name : CommandName)
deriving DecidableEq, Repr

/-- The commands by name. -/
def CommandName.named : List (String × CommandName) :=
  [("check", .check), ("init", .init), ("update", .update), ("clear", .clear),
    ("status", .status)]

/-- The options that are taken everywhere. -/
def sharedOptions : List (String × OptionKind) :=
  [("help", .help), ("verbose", .switch .verbose), ("debug", .switch .debug),
    ("config", .parameter .config), ("baseline", .parameter .baseline)]

/-- The options that say where the report comes from. -/
def reportOptions : List (String × OptionKind) :=
  [("input", .parameter .input), ("biome-version", .parameter .linterVersion)]

/-- The options of a command. -/
def CommandName.options : CommandName → List (String × OptionKind)
  | .check => reportOptions ++
      [("fix", .switch .fix), ("skip-baseline-update", .switch .skipBaselineUpdate),
        ("fail-on-improvement", .switch .failOnImprovement), ("strict", .switch .strict),
        ("out", .parameter .out)]
  | .init => reportOptions
  | .update => reportOptions
  | .clear => []
  | .status => [("format", .parameter .format)]

/-- The options that are taken in a scope. -/
def Scope.options : Scope → List (String × OptionKind)
  | .top => sharedOptions
  | .command name => sharedOptions ++ name.options

/-- The options that have a letter. -/
def shortOption? (c : Char) : Option OptionKind :=
  if c = 'v' then some (.switch .verbose) else if c = 'h' then some .help else none

/-- The formats of a summary by name. -/
def formats : List (String × SummaryFormat) := [("text", .text), ("json", .json)]

/-- Whether a parameter takes a value.  An empty one is taken only as a version. -/
def Parameter.accepts (p : Parameter) (value : String) : Bool :=
  match p with
  | .linterVersion => true
  | .format => (formats.lookup value).isSome
  | _ => value ≠ ""

end LintRatchet.CommandLine
