import LintRatchet.CommandLine.Reader
import LintRatchet.Configuration.Expansion
import LintRatchet.Configuration.File
import LintRatchet.Filter
import LintRatchet.Linter
import LintRatchet.Operations
import LintRatchet.Store.File

/-!
# The program

A run of the program starts with an *invocation*: arguments, variables, the
standard input and the programs that can be run.  It works on a *world* of
files and of what has been printed.

The configuration is read first, and options of the command line override it.
`check`, `init` and `update` then get a report, from a file, from the standard
input or from the linter itself.  The baseline is a file.
-/

namespace LintRatchet

/-- What a run starts with. -/
structure Invocation where
  arguments : List String
  environment : Expansion.Variables
  input : ByteArray
  programs : Programs

/-- What a run works on. -/
structure World where
  tree : FileTree
  printed : String := ""

/-- Why a run ends early. -/
inductive Failure where
  | configUnreadable (path : String) (cause : FileProblem)
  | configUnset (path : String) (cause : Expansion.Unset)
  | configMalformed (path : String)
  | inputUnreadable
  | reportUnreadable (path : String) (cause : FileProblem)
  | linter (cause : LinterFault)
  | store (cause : StoreFault)
  | receiptDirectory (path : String) (cause : FileProblem)
  | receiptFile (path : String) (cause : FileProblem)
deriving DecidableEq, Repr

/-- What is said of a text that is no configuration. -/
def malformedConfiguration : String := "<toml error>"

/-- A failure and what lies behind it, in words. -/
def Failure.chain : Failure → List String
  | configUnreadable path cause => ["read config '" ++ path ++ "'", cause.message]
  | configUnset path cause => ["parse config '" ++ path ++ "'", cause.message]
  | configMalformed path => ["parse config '" ++ path ++ "'", malformedConfiguration]
  | inputUnreadable => ["read linter output from stdin", FileProblem.notText.message]
  | reportUnreadable path cause => ["read linter output " ++ path, cause.message]
  | linter cause => cause.chain
  | store cause => [cause.message, cause.cause]
  | receiptDirectory path cause => ["create dir " ++ path, cause.message]
  | receiptFile path cause => ["write " ++ path, cause.message]

/-- What is said of a failure. -/
def Failure.message (f : Failure) : String := "error: " ++ ": ".intercalate f.chain

/-- A part of a run. -/
abbrev Job := Procedure World Failure

namespace Job

/-- Records an event of the program itself. -/
def note (level : Level) (message : String) : Job Unit := Procedure.note level .program message

/-- Prints a text. -/
def print (text : String) : Job Unit :=
  Procedure.change fun w => .ok { w with printed := w.printed ++ text }

/-- Reads the file at a path, and says what is at fault when it cannot be read. -/
def readText (fault : FileProblem → Failure) (path : String) : Job String :=
  Procedure.explain fault (Procedure.query fun w => w.tree.readText path)

/-- A procedure on the files. -/
def onTree {α : Type} (fault : FileProblem → Failure) (p : Procedure FileTree FileProblem α) :
    Job α :=
  Procedure.explain fault (Procedure.within (·.tree) (fun w t => { w with tree := t }) p)

/-- A procedure on the baseline in a file. -/
def onStore {α : Type} (path version : String) (p : Procedure FileStore StoreFault α) : Job α :=
  Procedure.explain .store
    (Procedure.within (fun w => ⟨w.tree, path, version⟩) (fun w s => { w with tree := s.tree }) p)

/-- The path of the working directory. -/
def workingDirectory : Job String := do
  return "/" ++ "/".intercalate (← Procedure.state).tree.workingDirectory

/-! ## Configuration -/

/-- The configuration file that is read when none is named. -/
def defaultConfig : String := "biomegate.toml"

/-- Puts the values of variables into a text. -/
def expand (environment : Expansion.Variables) (text : String) :
    Procedure World Expansion.Unset String := fun w =>
  ⟨Expansion.expand environment text, w, Expansion.journal environment text⟩

/-- Reads the configuration in a file, with the values of variables put in. -/
def readConfiguration (environment : Expansion.Variables) (path : String) : Job Configuration := do
  Procedure.note .debug .configuration ("Loading config from: " ++ path)
  let text ← readText (.configUnreadable path) path
  let text ← Procedure.explain (.configUnset path) (expand environment text)
  match Configuration.ofToml? text with
  | some c => return c
  | none => Procedure.fail (.configMalformed path)

/-- Finds the configuration.  The default file may be missing, one that is named may not. -/
def configure (environment : Expansion.Variables) (named : Option String) : Job Configuration := do
  match named with
  | some path => readConfiguration environment path
  | none =>
    if (← Procedure.state).tree.present defaultConfig then
      readConfiguration environment defaultConfig
    else
      Procedure.note .debug .configuration "No config file found, using built-in defaults"
      return .builtin

/-! ## Reports -/

/-- Records the length of a report. -/
def noteLength (report : String) : Job Unit :=
  note .debug ("Linter output length: " ++ toString report.utf8ByteSize ++ " bytes")

/-- Gets a report that has been recorded, from a file or from the standard input. -/
def recorded (inv : Invocation) (path : String) : Job String := do
  let report ←
    if path = "-" then do
      note .info "Reading linter output from stdin"
      match String.fromUTF8? inv.input with
      | some text => pure text
      | none => Procedure.fail .inputUnreadable
    else do
      note .info ("Reading linter output from file: " ++ path)
      readText (.reportUnreadable path) path
  noteLength report
  return report

/-- Gets a report, and the linter version to record with it. -/
def collect (inv : Invocation) (options : ReportOptions) (settings : Settings) (fix : Bool) :
    Job (String × String) := do
  match options.input with
  | some path =>
    let report ← recorded inv path
    match options.linterVersion with
    | some version => return (report, version)
    | none =>
      note .debug "No --biome-version for recorded output; recording unknown"
      return (report, unknownVersion)
  | none =>
    let linter ← Procedure.explain .linter
      (Procedure.query fun _ => Linter.ofCommand settings.linter)
    let files := (← Procedure.state).tree
    let report ← Procedure.explain .linter (linter.lint inv.programs files settings.paths fix)
    noteLength report
    match options.linterVersion with
    | some version => return (report, version)
    | none => return (report, ← linter.probe inv.programs files)

/-! ## Commands -/

/-- Writes a receipt, after the directories that lead there. -/
def writeReceipt (path : String) (r : Receipt) : Job Unit := do
  match PathName.parent? path with
  | none => pure ()
  | some "" => pure ()
  | some parent => onTree (.receiptDirectory parent) (FileTree.createDirectories parent)
  onTree (.receiptFile path)
    (Procedure.change (FileTree.write · path r.toValue.pretty.toUTF8))

/-- A policy that is as tight as the settings' and the options'. -/
def tighten (p : Policy) (options : CheckOptions) : Policy where
  failOnImprovement := p.failOnImprovement || options.failOnImprovement
  skipBaselineUpdate := p.skipBaselineUpdate || options.skipBaselineUpdate
  strict := p.strict || options.strict

/-- Compares a report with the baseline, and says what has come of it. -/
def check (inv : Invocation) (options : CheckOptions) (settings : Settings) : Job Nat := do
  note .info "Starting biomegate check"
  let (report, version) ← collect inv options.toReportOptions settings options.fix
  let plan : Plan := {
    policy := tighten settings.policy options
    workingDirectory := ← workingDirectory
    linterVersion := version }
  let run ← onStore settings.baseline version (Store.check plan report)
  print run.text
  match options.out with
  | none => pure ()
  | some path =>
    writeReceipt path run.receipt
    note .info ("Wrote receipt to " ++ path)
  return run.exitCode

/-- Makes a report the baseline, and says so with the verb for whether there was one before. -/
def snapshot (inv : Invocation) (options : ReportOptions) (settings : Settings)
    (verb : Bool → String) : Job Nat := do
  let (report, version) ← collect inv options settings false
  let cwd ← workingDirectory
  let run ← onStore settings.baseline version (Store.snapshot report cwd)
  print (verb run.replaced ++ " " ++ settings.baseline ++ " with " ++
    toString run.baseline.errors.length ++ " finding(s) (" ++
    toString run.baseline.fingerprints.length ++ " fingerprint(s)).\n")
  return 0

/-- Removes the baseline, and says whether there was one. -/
def clear (settings : Settings) : Job Nat := do
  if ← onStore settings.baseline unknownVersion Store.discard then
    print ("Removed " ++ settings.baseline ++ ".\n")
  else
    print ("No baseline at " ++ settings.baseline ++ "; nothing to clear.\n")
  return 0

/-- Says what the baseline is. -/
def status (settings : Settings) (format : SummaryFormat) : Job Nat := do
  let summary ← onStore settings.baseline unknownVersion Store.status
  match format with
  | .text => print summary.render
  | .json => print (summary.toValue.pretty ++ "\n")
  return 0

end Job

/-! ## Runs -/

/-- The level at which the journal is shown when no variable says otherwise. -/
def CommandLine.level (c : CommandLine) : Level :=
  if c.debug then .debug else if c.verbose then .info else .warning

/-- The name of that level. -/
def CommandLine.levelName (c : CommandLine) : String :=
  if c.debug then "debug" else if c.verbose then "info" else "warn"

/-- The settings of a configuration, with what the command line overrides. -/
def CommandLine.settings (c : CommandLine) (configuration : Configuration) : Settings :=
  let s := configuration.settings
  { s with baseline := c.baseline.getD s.baseline }

/-- Does what a command line says, and ends with the status of the process. -/
def CommandLine.execute (c : CommandLine) (inv : Invocation) : Job Nat := do
  Job.note .debug ("Logging initialized at level: " ++ c.levelName)
  let settings := c.settings (← Job.configure inv.environment c.config)
  Job.note .debug ("Baseline path: " ++ settings.baseline)
  match c.command with
  | .check options => Job.check inv options settings
  | .init options =>
    Job.snapshot inv options settings fun replaced => if replaced then "Recreated" else "Created"
  | .update options => Job.snapshot inv options settings fun _ => "Updated"
  | .clear => Job.clear settings
  | .status format => Job.status settings format

/-- What an invocation asks for. -/
def Invocation.commandLine (inv : Invocation) : Except UsageProblem CommandLine :=
  CommandLine.parse inv.arguments (inv.environment CommandLine.versionVariable)

/-- What of the journal is shown. -/
def Invocation.filter (inv : Invocation) (c : CommandLine) : Filter :=
  Filter.choose (inv.environment Filter.variableName) c.level

/-- How a run has ended. -/
structure Run where
  /-- The arguments are a command line, and this is what it has come to. -/
  result : Result World Failure Nat
  shown : List Event

/-- The status that the process ends with. -/
def Run.exitCode (r : Run) : Nat :=
  match r.result.outcome with
  | .ok code => code
  | .error _ => 1

/-- Runs the program on files. -/
def Invocation.run (inv : Invocation) (tree : FileTree) : Except UsageProblem Run := do
  let c ← inv.commandLine
  let result := c.execute inv { tree }
  return ⟨result, (inv.filter c).apply result.journal⟩

end LintRatchet
