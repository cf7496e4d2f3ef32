import LintRatchet.FileTree.Basic
import LintRatchet.FileTree.PathName
import LintRatchet.FileTree.Problem

/-!
# Following a path

A path is followed one segment at a time.  It starts at the root if it begins
with a slash, else at the working directory.  Each segment is looked up in the
directory reached so far.  `.` stays there and `..` goes up, and from the root
it stays.

`target` follows all segments but the last, because an operation decides for
itself what it needs of the last one.  A slash at the end of a path asks for a
directory.
-/

namespace LintRatchet

/-- The last segment of a path. -/
inductive LastSegment where
  /-- The name of something in a directory. -/
  | name (n : String)
  | here
  | up
  /-- There is no segment: the path is that of the root. -/
  | root
deriving DecidableEq, Repr

/-- Where a path leads, short of its last segment. -/
structure PathTarget where
  /-- The directory in which the last segment is looked up. -/
  directory : Location
  last : LastSegment
  /-- The path ends in a slash. -/
  slash : Bool
deriving DecidableEq, Repr

namespace FileTree

/-- The most bytes a name may have. -/
def maxName : Nat := 255

/-- The most bytes a path may have. -/
def maxPath : Nat := 4095

/-- The kind of a segment. -/
def segmentKind (s : String) : LastSegment :=
  if s = "." then .here else if s = ".." then .up else .name s

/-- The location of a name in a directory, unless the name is too long. -/
def child (directory : Location) (name : String) : Except FileProblem Location :=
  if maxName < name.utf8ByteSize then .error .nameTooLong else .ok (directory ++ [name])

/-- Goes one segment further. -/
def step (t : FileTree) (l : Location) (segment : String) : Except FileProblem Location :=
  if !t.isDirectory l then .error .notDirectory
  else
    match segmentKind segment with
    | .name n => do
      let next ← child l n
      if (t.at? next).isSome then return next else .error .notFound
    | .up => .ok l.dropLast
    | _ => .ok l

/-- Goes along segments. -/
def walk (t : FileTree) : Location → List String → Except FileProblem Location
  | l, [] => .ok l
  | l, s :: ss => do
    let next ← t.step l s
    t.walk next ss

/-- Where a path starts: at the root, or at the working directory. -/
def start (t : FileTree) (path : String) : Location :=
  if path.toList.head? = some '/' then [] else t.workingDirectory

/-- Where a path leads, short of its last segment. -/
def target (t : FileTree) (path : String) : Except FileProblem PathTarget :=
  if '\x00' ∈ path.toList then .error .nulInName
  else if path = "" then .error .notFound
  else if maxPath < path.utf8ByteSize then .error .nameTooLong
  else do
    let segments := PathName.segments path
    let directory ← t.walk (t.start path) segments.dropLast
    if !t.isDirectory directory then .error .notDirectory
    else
      return {
        directory
        last := (segments.getLast?.map segmentKind).getD .root
        slash := path.toList.getLast? = some '/' }

/-- The location of what a path names. -/
def locate (t : FileTree) (path : String) : Except FileProblem Location := do
  let p ← t.target path
  match p.last with
  | .here => return p.directory
  | .up => return p.directory.dropLast
  | .root => return []
  | .name n =>
    let l ← child p.directory n
    match t.at? l with
    | none => .error .notFound
    | some .directory => return l
    | some (.file _) => if p.slash then .error .notDirectory else return l

/-- Why what a path names cannot be run as a program.  No file of a tree may be run. -/
def runProblem (t : FileTree) (path : String) : FileProblem :=
  match t.locate path with
  | .ok _ => .permissionDenied
  | .error problem => problem

/-- A path names something. -/
def present (t : FileTree) (path : String) : Bool :=
  match t.locate path with
  | .ok _ => true
  | .error _ => false

/-- A path names a directory. -/
def namesDirectory (t : FileTree) (path : String) : Bool :=
  match t.locate path with
  | .ok l => t.isDirectory l
  | .error _ => false

/-- The bytes of the file that a path names. -/
def read (t : FileTree) (path : String) : Except FileProblem ByteArray := do
  let l ← t.locate path
  match t.at? l with
  | some (.file bytes) => return bytes
  | some .directory => .error .isDirectory
  | none => .error .notFound

/-- The text of the file that a path names.  Bytes that are no UTF-8 make no text. -/
def readText (t : FileTree) (path : String) : Except FileProblem String := do
  let bytes ← t.read path
  match String.fromUTF8? bytes with
  | some text => return text
  | none => .error .notText

end FileTree

end LintRatchet
