import LintRatchet.Pattern.Class
import LintRatchet.Text.Numeric

/-!
# Reading patterns

A pattern is a row of parts: characters, classes, positions and groups, with
bars between the alternatives.  A sign that repeats something stands after a
part, and a question mark right after that sign belongs to it.  Flags in
parentheses change the mode up to the end of the group in which they stand.
When the text is over, no group may be open, and the whole may be no deeper than
the limit.

`isPattern` tells whether a text is a pattern.
-/

namespace LintRatchet.Pattern

open LintRatchet.Text

/-! ## Flags and names -/

/-- The letters of flags, and the dash that turns off those after it. -/
def flagLetters : List Char := ['i', 'm', 's', 'U', 'u', 'R', 'x', '-']

/-- The letters are flags.  None stands twice, and the dash is not the last. -/
def areFlags (flags : List Char) : Bool :=
  flags.all flagLetters.contains && flags.Nodup && flags.getLast? ≠ some '-'

/-- The mode that flags make of a mode. -/
def Mode.change (m : Mode) (flags : List Char) : Mode :=
  let on := flags.takeWhile (· ≠ '-')
  let off := flags.dropWhile (· ≠ '-')
  let set (letter : Char) (before : Bool) : Bool :=
    if on.contains letter then true else if off.contains letter then false else before
  ⟨set 'x' m.spaced, set 'u' m.unicode⟩

/-- The text is the name of a group. -/
def isGroupName : List Char → Bool
  | [] => false
  | c :: cs =>
    (c = '_' || isAlphabetic c) &&
      cs.all fun c => ['_', '.', '[', ']'].contains c || isAlphanumeric c

/-! ## Groups -/

/-- Where the reading of a pattern has come to. -/
structure State where
  mode : Mode := {}
  /-- What has been read of the innermost open group, or of the pattern. -/
  body : Body := {}
  /-- The modes and bodies around the groups that are open, the innermost first. -/
  outer : List (Mode × Body) := []
  names : List (List Char) := []
deriving DecidableEq, Repr

namespace State

/-- One more part has been read. -/
def add (s : State) (depth : Nat) : State := { s with body := s.body.add depth }

/-- Opens a group whose inside has a mode. -/
def enter (s : State) (mode : Mode) : State :=
  { s with mode, body := {}, outer := (s.mode, s.body) :: s.outer }

/-- Closes the innermost open group. -/
def leave? (s : State) : Option State :=
  match s.outer with
  | [] => none
  | (mode, body) :: outer => some { s with mode, body := body.add (s.body.depth + 1), outer }

/-- No group is open, and the pattern is not too deep. -/
def isComplete (s : State) : Bool := s.outer.isEmpty && s.body.depth ≤ depthLimit

end State

/-- Reads the name of a group and opens it.  A name may be taken once. -/
def readGroupName (s : State) (cs : List Char) : Option (State × List Char) :=
  let name := cs.takeWhile (· ≠ '>')
  match cs.dropWhile (· ≠ '>') with
  | [] => none
  | _ :: rest =>
    if isGroupName name && !s.names.contains name then
      some ({ s.enter s.mode with names := name :: s.names }, rest)
    else none

/-- Reads flags, which hold for a group or for what follows. -/
def readFlags (s : State) (cs : List Char) : Option (State × List Char) :=
  let isFlag := fun c => c ≠ ':' && c ≠ ')'
  let flags := cs.takeWhile isFlag
  if areFlags flags then
    match cs.dropWhile isFlag with
    | [] => none
    | ':' :: rest => some (s.enter (s.mode.change flags), rest)
    | _ :: rest =>
      if flags.isEmpty then none
      else some ({ s with mode := s.mode.change flags, body := s.body.addFlags }, rest)
  else none

/-- Reads what follows an opening parenthesis, up to the inside of the group.  A group that looks
ahead or behind is refused. -/
def readGroup (s : State) (cs : List Char) : Option (State × List Char) :=
  match s.mode.skip cs with
  | '?' :: '<' :: '=' :: _ => none
  | '?' :: '<' :: '!' :: _ => none
  | '?' :: '<' :: cs => readGroupName s cs
  | '?' :: 'P' :: '<' :: cs => readGroupName s cs
  | '?' :: cs => readFlags s cs
  | cs => some (s.enter s.mode, cs)

/-! ## Patterns -/

/-- Reads an atom that is no class in brackets. -/
def readAtom (m : Mode) (c : Char) (cs : List Char) : Option (List Char) :=
  if c = '\\' then
    match readEscape m cs with
    | some (atom, cs) => if atom.isAllowed m then some cs else none
    | none => none
  else if c = '\x7b' || (c = '.' && !m.unicode) then none
  else some cs

/-- A text after the question mark that it starts with, if it does. -/
def dropQuestionMark : List Char → List Char
  | '?' :: cs => cs
  | cs => cs

/-- Reads on by a sign, where a part is over. -/
def readSign (s : State) (c : Char) (cs : List Char) : Option (State × List Char) :=
  if c = '(' then readGroup s cs
  else if c = ')' then s.leave?.map (·, cs)
  else if c = '|' then some ({ s with body := s.body.addBar }, cs)
  else if c = '?' || c = '*' || c = '+' then
    s.body.repeatLast?.map fun body => ({ s with body }, dropQuestionMark cs)
  else if c = '[' then (readWholeClass s.mode cs).map fun (depth, cs) => (s.add depth, cs)
  else (readAtom s.mode c cs).map (s.add 0, ·)

/-- The rest of a text goes on as a pattern. -/
def continues : (turns : List Char) → State → List Char → Bool
  | [], _, _ => false
  | _ :: turns, s, cs =>
    match s.mode.skip cs with
    | [] => s.isComplete
    | c :: cs =>
      match readSign s c cs with
      | some (s, cs) => continues turns s cs
      | none => false

/-- The text is a pattern. -/
def isPattern (cs : List Char) : Bool := continues (' ' :: cs) {} cs

end LintRatchet.Pattern
