import LintRatchet.Pattern.Depth
import LintRatchet.Pattern.Escape

/-!
# Classes in patterns

A class stands between brackets.  It lists characters, ranges and other classes,
and operations combine such lists, from left to right.  Right after the opening
bracket and a `^` a dash stands for itself, and so does a closing bracket.

In the mode of bytes nothing in a class is above `0x7f`, and no operation brings
in what its operands do not hold.  So only a negated class could hold a byte from
`0x80` on, and it always would: in that mode no class may be negated.
-/

namespace LintRatchet.Pattern

/-- A class that is not closed yet. -/
structure OpenClass where
  negated : Bool
  /-- The depth of the first operand of the operation whose second one is being read. -/
  left : Option Nat := none
  /-- The depths of what has been listed since. -/
  listed : List Nat := []
deriving DecidableEq, Repr

namespace OpenClass

/-- The depth of what is between the brackets so far. -/
def depth (f : OpenClass) : Nat :=
  match f.left with
  | none => listDepth f.listed
  | some left => max left (listDepth f.listed) + 1

/-- The class with one more thing in its list. -/
def add (f : OpenClass) (depth : Nat) : OpenClass := { f with listed := depth :: f.listed }

/-- The class as the first operand of an operation. -/
def operate (f : OpenClass) : OpenClass := { f with left := some f.depth, listed := [] }

/-- The depth of the class when it is closed, unless it may not be one. -/
def close? (m : Mode) (f : OpenClass) : Option Nat :=
  if m.unicode || !f.negated then some (f.depth + 1) else none

/-- Lists the dashes that a text starts with. -/
def readDashes (m : Mode) : (turns : List Char) → OpenClass → List Char → OpenClass × List Char
  | [], f, cs => (f, cs)
  | _ :: turns, f, cs =>
    match cs with
    | '-' :: rest => readDashes m turns (f.add 0) (m.skip rest)
    | _ => (f, cs)

end OpenClass

/-- Reads what follows the opening bracket of a class, with the dashes or the closing bracket that
its list starts with. -/
def openClass (m : Mode) (cs : List Char) : OpenClass × List Char :=
  let (negated, cs) := match m.skip cs with
    | '^' :: cs => (true, m.skip cs)
    | cs => (false, cs)
  let f : OpenClass := { negated }
  match cs with
  | ']' :: cs => (f.add 0, m.skip cs)
  | cs => f.readDashes m cs cs

/-- The names of classes of ASCII characters. -/
def asciiClasses : List String :=
  ["alnum", "alpha", "ascii", "blank", "cntrl", "digit", "graph", "lower", "print", "punct",
    "space", "upper", "word", "xdigit"]

/-- Reads a class of ASCII characters after its opening bracket, and whether it is negated. -/
def readAsciiClass (cs : List Char) : Option (Bool × List Char) :=
  match cs with
  | ':' :: cs =>
    let (negated, cs) := match cs with
      | '^' :: cs => (true, cs)
      | cs => (false, cs)
    match cs.dropWhile (· ≠ ':') with
    | ':' :: ']' :: rest =>
      if asciiClasses.contains (String.ofList (cs.takeWhile (· ≠ ':'))) then some (negated, rest)
      else none
    | _ => none
  | _ => none

/-- Reads an atom in a class. -/
def readClassAtom (m : Mode) : List Char → Option (Atom × List Char)
  | [] => none
  | '\\' :: cs => readEscape m cs
  | c :: cs => some (.literal c false, cs)

/-- The character that tells whether a dash makes a range.  It is the one after the dash, or in the
mode that is spaced the first after it that is not blank, where one number sign is passed over. -/
def afterDash (m : Mode) (cs : List Char) : Option Char :=
  if m.spaced then
    match cs.filter fun c => !Text.isBlank c with
    | '#' :: c :: _ => some c
    | ['#'] => cs.head?
    | [] => cs.head?
    | c :: _ => some c
  else cs.head?

/-- Reads an atom or a range in a class. -/
def readRange (m : Mode) (cs : List Char) : Option (List Char) := do
  let (first, cs) ← readClassAtom m cs
  let cs := m.skip cs
  let single := match cs with
    | '-' :: rest => afterDash m rest = some ']' || afterDash m rest = some '-'
    | _ => true
  if single then
    if first.isAllowedInClass m then return cs else none
  else
    let (last, cs) ← readClassAtom m (m.skip (cs.drop 1))
    match first, last with
    | .literal a _, .literal b _ =>
      if a ≤ b && first.isAllowedInClass m && last.isAllowedInClass m then return cs else none
    | _, _ => none

/-- A text after the operation on classes that it starts with. -/
def afterOperation? : List Char → Option (List Char)
  | '&' :: '&' :: cs => some cs
  | '-' :: '-' :: cs => some cs
  | '~' :: '~' :: cs => some cs
  | _ => none

/-- Reads the list of the innermost open class and what follows, up to where all are closed.  The
depth of the outermost one comes with the rest of the text. -/
def readClass (m : Mode) :
    (turns : List Char) → OpenClass → (outer : List OpenClass) → List Char →
      Option (Nat × List Char)
  | [], _, _, _ => none
  | _ :: turns, f, outer, cs =>
    match m.skip cs with
    | [] => none
    | '[' :: cs =>
      match readAsciiClass cs with
      | some (negated, cs) =>
        if m.unicode || !negated then readClass m turns (f.add 0) outer cs else none
      | none =>
        let (g, cs) := openClass m cs
        readClass m turns g (f :: outer) cs
    | ']' :: cs => do
      let depth ← f.close? m
      match outer with
      | [] => return (depth, cs)
      | g :: outer => readClass m turns (g.add depth) outer cs
    | cs =>
      match afterOperation? cs with
      | some cs => readClass m turns f.operate outer cs
      | none => do
        let cs ← readRange m cs
        readClass m turns (f.add 0) outer cs

/-- Reads a class after its opening bracket. -/
def readWholeClass (m : Mode) (cs : List Char) : Option (Nat × List Char) :=
  let (f, rest) := openClass m cs
  readClass m cs f [] rest

end LintRatchet.Pattern
