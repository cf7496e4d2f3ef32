import LintRatchet.Program
import LintRatchet.Text.Terminal

/-!
# The command

The program itself works on a file tree.  Here the files that a command line
names are loaded into such a tree, the program is run on it, and what it has
changed is written back.

Programs are not started from here.  The linter counts as missing, and the
report has to be recorded.
-/

namespace LintRatchet.Main

/-! ## Loading -/

/-- The absolute path of a location. -/
def pathOf (l : Location) : String := "/" ++ "/".intercalate l

/-- What is at a location of the machine. -/
def entryAt? (l : Location) : IO (Option Entry) := do
  try
    if ← (← IO.FS.realPath (pathOf l)).isDir then return some .directory
    return some (.file (← IO.FS.readBinFile (pathOf l)))
  catch _ => return none

/-- Loads what is at a location, unless it is in the tree already. -/
def load (t : FileTree) (l : Location) : IO FileTree := do
  if (t.at? l).isSome then return t
  match ← entryAt? l with
  | some e => return t.put l e
  | none => return t

/-- Loads what a path leads through, from its start to its end. -/
def loadPath (t : FileTree) (path : String) : IO FileTree := do
  let mut tree := t
  let mut here := t.start path
  for segment in PathName.segments path do
    match FileTree.segmentKind segment with
    | .name n => here := here ++ [n]
    | .up => here := here.dropLast
    | _ => pure ()
    tree ← load tree here
  return tree

/-- The tree that has the working directory only. -/
def start : IO FileTree := do
  let path := (← IO.currentDir).toString
  let l := PathName.segments path
  loadPath ⟨[], l⟩ path

/-- The values of some variables. -/
def environment (names : List String) : IO Expansion.Variables := do
  let values ← names.filterMapM fun name => do
    return (← IO.getEnv name).map fun value => (name, value)
  return fun name => values.lookup name

/-- The names of the variables that a text refers to. -/
def referredIn (text : String) : List String :=
  (Expansion.pieces text.toList).filterMap fun
    | .reference r => some (String.ofList r.name)
    | .char _ => none

/-- The files that a command line names, besides its configuration. -/
def pathsOf (c : CommandLine) (s : Settings) : List String :=
  let options := match c.command with
    | .check o => o.input.toList ++ o.out.toList
    | .init o => o.input.toList
    | .update o => o.input.toList
    | _ => []
  s.baseline :: options

/-! ## Writing back -/

/-- Puts a file at a path in one step. -/
def publish (path : String) (content : ByteArray) : IO Unit := do
  IO.FS.writeBinFile (path ++ ".new") content
  IO.FS.rename (path ++ ".new") path

/-- Makes the machine's files what they are in a tree, where another tree says something else. -/
def writeBack (before after : FileTree) : IO Unit := do
  for (l, _) in before.entries do
    if (after.at? l).isNone then IO.FS.removeFile (pathOf l)
  for (l, e) in after.entries.reverse do
    if !(before.at? l).any e.same then
      match e with
      | .directory => IO.FS.createDirAll (pathOf l)
      | .file content => publish (pathOf l) content

/-! ## Running -/

/-- How the program is called. -/
def usage : String :=
  "usage: biomegate [-v] [--debug] [--config FILE] [--baseline FILE] " ++
    "check|init|update|clear|status [options]"

/-- An event as a line. -/
def eventLine (e : Event) : String :=
  e.level.name ++ " " ++ e.source.target ++ ": " ++ Text.shownText e.message

/-- The standard input, where a command line asks for it. -/
def inputOf (c : CommandLine) : IO ByteArray := do
  let input := match c.command with
    | .check o => o.input
    | .init o => o.input
    | .update o => o.input
    | _ => none
  if input = some "-" then (← IO.getStdin).readBinToEnd else return ByteArray.empty

/-- Runs the program for a command line. -/
def runCommand (arguments : List String) (c : CommandLine) : IO UInt32 := do
  let config := c.config.getD Job.defaultConfig
  let t ← loadPath (← start) config
  let known ← environment
    ([CommandLine.versionVariable, Filter.variableName] ++
      ((t.readText config).toOption.map referredIn).getD [])
  let programs : Programs := fun _ _ => none
  let settings := match (Job.configure known c.config { tree := t }).outcome with
    | .ok configuration => c.settings configuration
    | .error _ => c.settings .builtin
  let t ← (pathsOf c settings).foldlM loadPath t
  let inv : Invocation := ⟨arguments, known, ← inputOf c, programs⟩
  match inv.run t with
  | .error p => return UInt32.ofNat p.exitCode
  | .ok run =>
    for e in run.shown do
      IO.eprintln (eventLine e)
    writeBack t run.result.state.tree
    IO.print run.result.state.printed
    match run.result.outcome with
    | .ok _ => pure ()
    | .error f => IO.eprintln f.message
    return UInt32.ofNat run.exitCode

end LintRatchet.Main

/-- Runs the program for the arguments of the process. -/
def main (arguments : List String) : IO UInt32 := do
  let version ← IO.getEnv LintRatchet.CommandLine.versionVariable
  match LintRatchet.CommandLine.parse arguments version with
  | .ok c => LintRatchet.Main.runCommand arguments c
  | .error .help =>
    IO.println LintRatchet.Main.usage
    return 0
  | .error p =>
    IO.eprintln LintRatchet.Main.usage
    return UInt32.ofNat p.exitCode
