import LintRatchet.FileTree.Change
import LintRatchet.Store.Basic

/-!
# Baselines in files

A file store keeps the baseline as a document in a file tree.  Saving first
creates the directory of the file and then puts the file there in one step.  A
file that cannot be read, or is no baseline, counts as none when it is loaded.
`tryLoad` tells these cases apart.
-/

namespace LintRatchet

/-- A store that keeps its baseline in a file. -/
structure FileStore where
  tree : FileTree
  path : String
  /-- The linter version of the baselines that it saves. -/
  version : String := unknownVersion

namespace FileStore

/-- The baseline in the file, if there is a file. -/
def tryLoad (s : FileStore) : Except StoreFault (Option Baseline) :=
  if !s.tree.present s.path then .ok none
  else
    match s.tree.readText s.path with
    | .error e => .error (.unreadable s.path e)
    | .ok text =>
      match Baseline.decode text with
      | .error e => .error (.undecodable s.path e)
      | .ok b => .ok (some b.normalize)

/-- What `tryLoad` records. -/
def loadJournal (s : FileStore) : List Event :=
  if s.tree.present s.path then [] else [⟨.debug, .file, "No baseline at " ++ s.path⟩]

/-- The baseline in the file, or none. -/
def load (s : FileStore) : Loaded :=
  match s.tryLoad with
  | .ok b => ⟨b, s.loadJournal⟩
  | .error e =>
    ⟨none, s.loadJournal ++ [⟨.warning, .file, e.message ++ "; treating as no baseline"⟩]⟩

/-- A procedure on the file tree as one on the store. -/
def onTree {ε α : Type} : Procedure FileTree ε α → Procedure FileStore ε α :=
  Procedure.within (·.tree) (fun s t => { s with tree := t })

/-- Puts a file at a path in one step, after the directories that lead there. -/
def publish (path : String) (bytes : ByteArray) : Procedure FileTree FileProblem Unit := do
  FileTree.createDirectories (PathName.directory path)
  Procedure.change (FileTree.replace · path bytes)

/-- Puts the baseline that accepts some findings into the file. -/
def save (findings : List Finding) : Procedure FileStore StoreFault Baseline := do
  let s ← Procedure.state
  let b := Baseline.ofFindings findings s.version
  Procedure.explain (StoreFault.unwritable s.path) (onTree (publish s.path b.render.toUTF8))
  Procedure.note .debug .file ("Wrote baseline with " ++ toString b.fingerprints.length ++
    " fingerprint(s) to " ++ s.path)
  return b

/-- Removes the file, and says whether there was one. -/
def clear : Procedure FileStore StoreFault Bool := fun s =>
  match s.tree.remove s.path with
  | .ok t => ⟨.ok true, { s with tree := t }, []⟩
  | .error .notFound => ⟨.ok false, s, []⟩
  | .error e => ⟨.error (.unremovable s.path e), s, []⟩

instance : Store FileStore where
  location s := s.path
  load := load
  save := save
  clear := clear

end FileStore

end LintRatchet
