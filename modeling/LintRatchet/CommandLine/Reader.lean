import LintRatchet.CommandLine.Grammar

/-!
# Reading command lines

The arguments of a scope are read from left to right.  A parameter that has been
named is *pending* until the next option of its scope, or the end of the scope:
only then is it seen whether its value is there, whether it is the only one, and
whether it is acceptable.  An argument that fits nowhere is a problem at once,
and it comes before the problems of a pending parameter.

The scope before the command ends when the scope of the command has been read.
An option that stands in both scopes counts as it stands after the command.
-/

namespace LintRatchet.CommandLine

/-- What has been read of a scope. -/
structure Given where
  switches : List Switch := []
  values : List (Parameter × String) := []
  /-- The parameter that was named last, and its value if it has one yet. -/
  pending : Option (Parameter × Option String) := none

namespace Given

/-- The next argument may be the value of a parameter. -/
def awaits (g : Given) : Bool :=
  match g.pending with
  | some (_, none) => true
  | _ => false

/-- Nothing has been given. -/
def isEmpty (g : Given) : Bool := g.switches.isEmpty && g.values.isEmpty

/-- Takes a value for a parameter. -/
def assign (g : Given) (p : Parameter) (value : String) : Except UsageProblem Given :=
  if (g.values.lookup p).isSome then .error .repeated
  else if p.accepts value then .ok { g with values := (p, value) :: g.values }
  else .error .badValue

/-- Takes the pending parameter for good. -/
def settle (g : Given) : Except UsageProblem Given :=
  match g.pending with
  | none => .ok g
  | some (_, none) => .error .badValue
  | some (p, some value) => { g with pending := none }.assign p value

/-- Takes a switch. -/
def turnOn (g : Given) (s : Switch) : Except UsageProblem Given := do
  let g ← g.settle
  if g.switches.contains s then .error .repeated
  else return { g with switches := s :: g.switches }

/-- Takes an option that may have a value attached to it. -/
def take (g : Given) (kind : OptionKind) (attached : Option String) : Except UsageProblem Given :=
  match kind, attached with
  | .parameter p, some value => do
    let g ← g.settle
    g.assign p value
  | .parameter p, none => do
    let g ← g.settle
    return { g with pending := some (p, none) }
  | _, some _ => .error .unwantedValue
  | .switch s, none => g.turnOn s
  | .help, none => do
    let _ ← g.settle
    .error .help

/-- Takes the options of a cluster of letters. -/
def takeLetters (g : Given) : List Char → Except UsageProblem Given
  | [] => .ok g
  | c :: cs =>
    match shortOption? c with
    | none => .error .unknownArgument
    | some kind => do
      let g ← g.take kind none
      g.takeLetters cs

end Given

/-! ## Arguments -/

/-- What an argument looks like. -/
inductive Shape where
  /-- `--` -/
  | escape
  /-- `--name` or `--name=value` -/
  | long (name : String) (attached : Option String)
  /-- `-abc` -/
  | short (letters : List Char)
  /-- Anything else, also `-`. -/
  | plain
deriving DecidableEq, Repr

/-- What the characters of an argument look like. -/
def Shape.ofChars : List Char → Shape
  | ['-', '-'] => .escape
  | '-' :: '-' :: cs =>
    let attached := match cs.dropWhile (· ≠ '=') with
      | _ :: value => some (String.ofList value)
      | [] => none
    .long (String.ofList (cs.takeWhile (· ≠ '='))) attached
  | '-' :: c :: cs => .short (c :: cs)
  | _ => .plain

/-- What an argument looks like. -/
def Shape.of (argument : String) : Shape := ofChars argument.toList

/-- The problem with an argument that has no place. -/
def misplaced : Scope → UsageProblem
  | .top => .unknownCommand
  | .command _ => .unknownArgument

/-- The name of a command, or of the one that asks for help. -/
def isCommandWord (argument : String) : Bool :=
  argument = "help" || (CommandName.named.lookup argument).isSome

/-- What is wrong with the arguments after `--`, if there are any.  None of them has a place. -/
def afterEscape (scope : Scope) : List String → Option UsageProblem
  | [] => none
  | a :: _ =>
    some (if scope = .top && isCommandWord a then .unknownArgument else misplaced scope)

/-- The answer to `help` and the names that follow it. -/
def helpOn : List String → UsageProblem
  | [] => .help
  | [name] => if isCommandWord name then .help else .unknownCommand
  | _ => .unknownCommand

/-- What has been read of a scope, and the command with its arguments if there is one. -/
abbrev Scanned := Given × Option (CommandName × List String)

/-- Reads an argument that is no command. -/
def Given.scanArgument (g : Given) (scope : Scope) (argument : String) :
    Except UsageProblem Given :=
  match Shape.of argument with
  | .long name attached =>
    match scope.options.lookup name with
    | some kind => g.take kind attached
    | none => .error .unknownArgument
  | .short letters => g.takeLetters letters
  | _ =>
    match g.pending with
    | some (p, none) => .ok { g with pending := some (p, some argument) }
    | _ => .error (misplaced scope)

/-- Reads the arguments of a scope. -/
def scan (scope : Scope) (g : Given) : List String → Except UsageProblem Scanned
  | [] => .ok (g, none)
  | a :: as =>
    if scope = .top && !g.awaits && a = "help" then .error (helpOn as)
    else
      match if scope = .top && !g.awaits then CommandName.named.lookup a else none with
      | some name => .ok (g, some (name, as))
      | none =>
        if a = "--" then
          match afterEscape scope as with
          | none => .ok (g, none)
          | some problem => .error problem
        else do
          let g ← g.scanArgument scope a
          scan scope g as

/-! ## Command lines -/

/-- Where the report comes from.  A version that is not given is taken from the environment. -/
def Given.report (g : Given) (version : Option String) : ReportOptions :=
  ⟨g.values.lookup .input, (g.values.lookup .linterVersion).or version⟩

/-- The command with the options that were given for it. -/
def Given.command (g : Given) (name : CommandName) (version : Option String) : Command :=
  match name with
  | .check =>
    .check {
      toReportOptions := g.report version
      fix := g.switches.contains .fix
      skipBaselineUpdate := g.switches.contains .skipBaselineUpdate
      failOnImprovement := g.switches.contains .failOnImprovement
      strict := g.switches.contains .strict
      out := g.values.lookup .out }
  | .init => .init (g.report version)
  | .update => .update (g.report version)
  | .clear => .clear
  | .status => .status (((g.values.lookup .format).bind fun f => formats.lookup f).getD .text)

/-- The command line of what was given before and after a command. -/
def join (top sub : Given) (name : CommandName) (version : Option String) : CommandLine where
  verbose := top.switches.contains .verbose || sub.switches.contains .verbose
  debug := top.switches.contains .debug || sub.switches.contains .debug
  config := (sub.values.lookup .config).or (top.values.lookup .config)
  baseline := (sub.values.lookup .baseline).or (top.values.lookup .baseline)
  command := sub.command name version

/-- The variable whose value is the linter version to record when none is given. -/
def versionVariable : String := "BIOMEGATE_BIOME_VERSION"

/-- Reads the arguments after the program's name.  `version` is the value of `versionVariable`. -/
def parse (arguments : List String) (version : Option String) :
    Except UsageProblem CommandLine := do
  let (top, rest) ← scan .top {} arguments
  match rest with
  | none =>
    let top ← top.settle
    if top.isEmpty then .error .nothing else .error .noCommand
  | some (name, arguments) =>
    let (sub, _) ← scan (.command name) {} arguments
    let sub ← sub.settle
    let top ← top.settle
    return join top sub name version

end LintRatchet.CommandLine
