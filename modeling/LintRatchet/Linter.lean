import LintRatchet.Baseline
import LintRatchet.FileTree.Resolve
import LintRatchet.Procedure
import LintRatchet.Text.Blank
import LintRatchet.Text.Lines
import LintRatchet.Text.Utf8

/-!
# Running the linter

The linter is a command: a program and the arguments that come first.  `lint`
runs it and takes what it prints.  A linter that reports findings ends with a
status other than zero, so the status does not matter.  `probe` asks it for its
version and never fails.
-/

namespace LintRatchet

/-! ## Programs -/

/-- What a program that has ended leaves behind. -/
structure ProgramRun where
  status : UInt8
  output : ByteArray

/-- The programs that can be run: by name, what they do with their arguments. -/
abbrev Programs := String → List String → Option ProgramRun

/-- Why there is no program of a name.  A name with a slash is the path of a file.  Any other is
looked up in several directories, and there `.` and `..` are directories too. -/
def missingProgram (files : FileTree) (name : String) : FileProblem :=
  if name.toList.contains '/' then files.runProblem name
  else if FileTree.maxName < name.utf8ByteSize then .nameTooLong
  else if name = "." || name = ".." then .permissionDenied
  else .notFound

/-- Runs a program.  Neither its name nor an argument may have a NUL character in it. -/
def Programs.run (programs : Programs) (files : FileTree) (name : String)
    (arguments : List String) : Except FileProblem ProgramRun :=
  if (name :: arguments).any fun a => a.toList.contains '\x00' then .error .nulInArgument
  else
    match programs name arguments with
    | some r => .ok r
    | none => .error (missingProgram files name)

/-- The status of a program that has ended, in words. -/
def ProgramRun.statusText (r : ProgramRun) : String := "exit status: " ++ toString r.status.toNat

/-! ## The linter -/

/-- The command that runs the linter. -/
structure Linter where
  program : String
  leading : List String
deriving DecidableEq, Repr

/-- Why there is no report. -/
inductive LinterFault where
  | noCommand
  | notRun (program : String) (cause : FileProblem)
deriving DecidableEq, Repr

/-- A fault and what lies behind it, in words. -/
def LinterFault.chain : LinterFault → List String
  | noCommand => ["linter command is empty; set `biome` in biomegate.toml"]
  | notRun program cause => ["run " ++ program, cause.message]

namespace Linter

/-- The linter that is run by the words of a command. -/
def ofCommand : List String → Except LinterFault Linter
  | [] => .error .noCommand
  | program :: leading => .ok ⟨program, leading⟩

/-- The arguments of a run that reports findings.  With `fix` the linter mends what it can first. -/
def lintArguments (l : Linter) (paths : List String) (fix : Bool) : List String :=
  l.leading ++ ["lint", "--reporter=github"] ++ (if fix then ["--write"] else []) ++ paths

/-- Records an event of the linter. -/
def note {σ ε : Type} (level : Level) (message : String) : Procedure σ ε Unit :=
  Procedure.note level .linter message

/-- Runs the linter and ends with its report.  Bytes that are no text are replaced. -/
def lint {σ : Type} (l : Linter) (programs : Programs) (files : FileTree) (paths : List String)
    (fix : Bool) : Procedure σ LinterFault String := do
  let arguments := l.lintArguments paths fix
  note .debug ("Running " ++ l.program ++ " " ++ " ".intercalate arguments)
  match programs.run files l.program arguments with
  | .error cause => Procedure.fail (.notRun l.program cause)
  | .ok r =>
    if r.status ≠ 0 then
      note .debug (l.program ++ " exited with " ++ r.statusText ++ "; parsing its output anyway")
    return Text.decodeLossy r.output

/-- A line without the word that may stand before a version. -/
def dropVersionWord (line : List Char) : List Char :=
  let word := "Version:".toList
  if word.isPrefixOf line then line.drop word.length else line

/-- The version in what the linter prints: its first line that is not blank, without the word
before it. -/
def version? (output : String) : Option String := do
  let line ← ((Text.lines output.toList).map Text.trim).find? fun line => !line.isEmpty
  let version := Text.trim (dropVersionWord line)
  if version.isEmpty then none else some (String.ofList version)

/-- Asks the linter for its version.  Where there is no answer the version is unknown. -/
def probe {σ ε : Type} (l : Linter) (programs : Programs) (files : FileTree) :
    Procedure σ ε String := do
  match programs.run files l.program (l.leading ++ ["--version"]) with
  | .error cause =>
    note .warning ("could not determine linter version: " ++ cause.message)
    return unknownVersion
  | .ok r =>
    if r.status ≠ 0 then
      note .warning (l.program ++ " --version exited with " ++ r.statusText)
      return unknownVersion
    else
      match version? (Text.decodeLossy r.output) with
      | some version => return version
      | none =>
        note .warning (l.program ++ " --version printed nothing")
        return unknownVersion

end Linter

end LintRatchet
