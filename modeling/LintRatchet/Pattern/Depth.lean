/-!
# The depth of patterns

Parts of a pattern stand inside each other: a group holds alternatives, an
alternative holds a row of parts, and a repetition holds the part that it
repeats.  The depth of a part counts what stands around its innermost character.
Only a list of several things counts for itself, so a row of one part is as deep
as that part.

Patterns are read only up to a depth.  Here the depths of what has been read of
an open group are kept, so that the depth of a pattern is known at its end
without the pattern itself.
-/

namespace LintRatchet.Pattern

/-- How deep a pattern may be. -/
def depthLimit : Nat := 250

/-- The depth of a list of things by their depths. -/
def listDepth : List Nat → Nat
  | [] => 0
  | [depth] => depth
  | depths => depths.foldl max 0 + 1

/-- What has been read of a group. -/
structure Body where
  /-- The depths of the parts since the last bar, the last part first. -/
  row : List Nat := []
  /-- The last part may be repeated. -/
  repeatable : Bool := false
  /-- The depths of the alternatives before that bar. -/
  alternatives : List Nat := []
deriving DecidableEq, Repr

namespace Body

/-- How deep the body is. -/
def depth (b : Body) : Nat := listDepth (listDepth b.row :: b.alternatives)

/-- The body with one more part. -/
def add (b : Body) (depth : Nat) : Body := { b with row := depth :: b.row, repeatable := true }

/-- The body with flags as one more part, which cannot be repeated. -/
def addFlags (b : Body) : Body := { b with row := 0 :: b.row, repeatable := false }

/-- The body with a bar after what has been read. -/
def addBar (b : Body) : Body := ⟨[], false, listDepth b.row :: b.alternatives⟩

/-- The body with its last part repeated. -/
def repeatLast? (b : Body) : Option Body :=
  match b.row with
  | [] => none
  | depth :: row => if b.repeatable then some { b with row := (depth + 1) :: row } else none

end Body

end LintRatchet.Pattern
