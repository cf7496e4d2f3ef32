import LintRatchet.FileTree.Resolve
import LintRatchet.Procedure

/-!
# Changing a tree

Each operation changes one location or none, except `createDirectories`, which
creates as many directories as it can and keeps them when it fails.

`replace` puts a file where a path leads in one step.  Nobody sees a file with a
part of the bytes, and a failure changes nothing.  `write` overwrites a file in
place.  The two differ in what they say about a path that no file can have.
-/

namespace LintRatchet.FileTree

/-- Creates the directory that a path names, in a directory that is there. -/
def makeDirectory (t : FileTree) (path : String) : Except FileProblem FileTree := do
  let p ← t.target path
  match p.last with
  | .name n =>
    let l ← child p.directory n
    if (t.at? l).isSome then .error .exists else return t.put l .directory
  | _ => .error .exists

/-- Where a file is put for a path. -/
def slot (t : FileTree) (path : String) : Except FileProblem Location :=
  if '\x00' ∈ path.toList then .error .invalidArgument
  else do
    let p ← t.target path
    match p.last with
    | .name n =>
      let l ← child p.directory n
      if p.slash then .error .notDirectory
      else if t.isDirectory l then .error .isDirectory
      else return l
    | _ => .error .busy

/-- Puts a new file in the place of what a path names, or where there is nothing yet. -/
def replace (t : FileTree) (path : String) (bytes : ByteArray) : Except FileProblem FileTree :=
  (t.slot path).map fun l => t.put l (.file bytes)

/-- Overwrites the file that a path names, or creates it where there is nothing. -/
def write (t : FileTree) (path : String) (bytes : ByteArray) : Except FileProblem FileTree := do
  let p ← t.target path
  match p.last with
  | .name n =>
    if p.slash then .error .isDirectory
    else
      let l ← child p.directory n
      if t.isDirectory l then .error .isDirectory else return t.put l (.file bytes)
  | _ => .error .isDirectory

/-- Removes the file that a path names. -/
def remove (t : FileTree) (path : String) : Except FileProblem FileTree := do
  let p ← t.target path
  match p.last with
  | .name n =>
    let l ← child p.directory n
    match t.at? l with
    | none => .error .notFound
    | some .directory => .error .isDirectory
    | some (.file _) => if p.slash then .error .notDirectory else return t.erase l
  | _ => .error .isDirectory

/-- Creates a directory unless it is there already. -/
def ensureDirectory (t : FileTree) (path : String) : Except FileProblem FileTree :=
  match t.makeDirectory path with
  | .ok t => .ok t
  | .error e => if t.namesDirectory path then .ok t else .error e

/-- Creates a directory and those above it that are missing. -/
def createDirectories (path : String) : Procedure FileTree FileProblem Unit := fun t =>
  if path = "" then (pure () : Procedure FileTree FileProblem Unit) t
  else
    match t.makeDirectory path, _h : PathName.parent? path with
    | .error .notFound, some parent =>
      (do createDirectories parent; Procedure.change (ensureDirectory · path)) t
    | _, _ => Procedure.change (ensureDirectory · path) t
termination_by path.length
decreasing_by exact PathName.parent?_length _h

end LintRatchet.FileTree
