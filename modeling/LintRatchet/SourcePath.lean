import LintRatchet.Text.Split

/-!
# Source paths

The file of a finding is written in one way, whatever the platform and the
directory the linter ran in.  `normalize path cwd` turns backslashes into
slashes, makes an absolute path relative to the working directory, and drops
leading `./`.

An absolute path is made relative component by component.  The components of a
path are its pieces between slashes, without empty ones and `.`.  The part that
the path shares with the working directory is dropped, and each component of
the working directory that is not shared becomes `..`.  A first component that
ends in a colon is a *drive*.  Paths with a drive are compared without regard
to the case of ASCII letters, others exactly.  If only one of the two paths has
a drive, or their drives differ, there is nothing to be relative to and the
path stays absolute.
-/

namespace LintRatchet.SourcePath

open LintRatchet.Text (split join)

/-! ## Separators and components -/

/-- Every backslash turned into a slash. -/
def slashes (path : List Char) : List Char := path.map fun c => if c = '\\' then '/' else c

/-- The pieces between slashes that name something: not empty and not `.`. -/
def components (path : List Char) : List (List Char) :=
  (split '/' path).filter fun piece => piece ≠ [] && piece ≠ ['.']

/-- The path starts at a root: with a slash, or with an ASCII letter, a colon and a slash. -/
def isAbsolute : List Char → Bool
  | '/' :: _ => true
  | c :: ':' :: '/' :: _ => c.isAlpha
  | _ => false

/-- The first component, when it ends in a colon. -/
def drive? (comps : List (List Char)) : Option (List Char) :=
  comps.head?.filter fun c => c.getLast? = some ':'

/-! ## Relative paths -/

/-- How two components are compared: on drives the case of ASCII letters does not count. -/
def same (onDrive : Bool) (a b : List Char) : Bool :=
  if onDrive then a.map Char.toLower = b.map Char.toLower else a = b

/-- What is left of two lists after the components they share at the start. -/
def dropShared (onDrive : Bool) :
    List (List Char) → List (List Char) → List (List Char) × List (List Char)
  | t :: target, b :: base =>
    if same onDrive t b then dropShared onDrive target base else (t :: target, b :: base)
  | target, base => (target, base)

/-- The two paths start at the same root. -/
def sameRoot (target base : List (List Char)) : Bool :=
  match drive? target, drive? base with
  | none, none => true
  | some a, some b => same true a b
  | _, _ => false

/-- The way from the directory `base` to `target`: up out of what is not shared, then down. -/
def climb (target base : List (List Char)) : List (List Char) :=
  let (down, up) := dropShared (drive? target).isSome target base
  up.map (fun _ => ['.', '.']) ++ down

/-- The path relative to a working directory.  `none` when there is no common root. -/
def relative? (path cwd : List Char) : Option (List Char) :=
  if isAbsolute cwd && sameRoot (components path) (components cwd) then
    let way := climb (components path) (components cwd)
    some (if way = [] then ['.'] else join '/' way)
  else none

/-! ## Normal form -/

/-- A path without the `./` it starts with, however often. -/
def dropHere : List Char → List Char
  | '.' :: '/' :: rest => dropHere rest
  | path => path

/-- The one spelling of a path that a linter reported, as characters. -/
def normalizeChars (path cwd : List Char) : List Char :=
  let path := slashes path
  dropHere (if isAbsolute path then (relative? path (slashes cwd)).getD path else path)

/-- The one spelling of a path that a linter reported from the working directory `cwd`. -/
def normalize (path cwd : String) : String :=
  String.ofList (normalizeChars path.toList cwd.toList)

/-- A string with every backslash turned into a slash. -/
def withSlashes (path : String) : String := String.ofList (slashes path.toList)

/-- A string with every slash turned into a backslash. -/
def withBackslashes (path : String) : String :=
  String.ofList (path.toList.map fun c => if c = '/' then '\\' else c)

end LintRatchet.SourcePath
