import LintRatchet.Json.Rounded

/-!
# Reading JSON from the front

A reader takes a value off the front of a text and leaves the rest.  It stops
at the first problem it meets.  There are three kinds of them: the text ends
too early, it is not JSON, or it is JSON of the wrong kind for what is read.

Blank text between tokens is spaces, tabs, line feeds and carriage returns.
-/

namespace LintRatchet.Json

/-- Why a text cannot be read. -/
inductive Problem where
  /-- The text ends too early. -/
  | truncated
  /-- The text is not JSON, or more follows where it should end. -/
  | malformed
  /-- A value of the wrong kind, a member that is missing, repeated or unknown. -/
  | mismatch
deriving DecidableEq, Repr, Inhabited

/-- Takes a value off the front of a text. -/
abbrev Reader (α : Type) := List Char → Except Problem (α × List Char)

/-- A character that may stand between tokens. -/
def isGap (c : Char) : Bool := c = ' ' || c = '\n' || c = '\t' || c = '\r'

/-- A text without the blank text it starts with. -/
def skipGap (cs : List Char) : List Char := cs.dropWhile isGap

/-! ## Keywords -/

/-- Reads the letters of a keyword. -/
def readLetters : List Char → List Char → Except Problem (List Char)
  | [], cs => .ok cs
  | _ :: _, [] => .error .truncated
  | l :: ls, c :: cs => if l = c then readLetters ls cs else .error .malformed

/-! ## Numbers -/

/-- Reads one or more digits.  At the end of the text the given problem arises. -/
def readDigits (atEnd : Problem) (cs : List Char) : Except Problem (List Char × List Char) :=
  match cs with
  | [] => .error atEnd
  | c :: _ =>
    if c.isDigit then .ok (cs.takeWhile Char.isDigit, cs.dropWhile Char.isDigit)
    else .error .malformed

/-- Reads the digits after a point, if there is one. -/
def readFraction (atEnd : Problem) : List Char → Except Problem (List Char × List Char)
  | '.' :: cs => readDigits atEnd cs
  | cs => .ok ([], cs)

/-- Reads the exponent after an `e`, if there is one. -/
def readExponent (atEnd : Problem) : List Char → Except Problem (Option Int × List Char)
  | [] => .ok (none, [])
  | c :: cs =>
    if c = 'e' || c = 'E' then do
      let (down, cs) := match cs with
        | '-' :: cs => (true, cs)
        | '+' :: cs => (false, cs)
        | cs => (false, cs)
      let (digits, cs) ← readDigits atEnd cs
      let n : Int := digitsValue digits
      return (some (if down then -n else n), cs)
    else .ok (none, c :: cs)

/-- Reads the digits before a point.  A zero stands alone. -/
def readWhole (atEnd : Problem) (cs : List Char) : Except Problem (List Char × List Char) := do
  let (digits, rest) ← readDigits atEnd cs
  if digits.head? = some '0' && digits.length ≠ 1 then .error .malformed
  else return (digits, rest)

/-- Reads a number in its decimal form. -/
def scanNumeral (atEnd : Problem) (cs : List Char) : Except Problem (Numeral × List Char) := do
  let (negative, cs) := match cs with
    | '-' :: cs => (true, cs)
    | cs => (false, cs)
  let (whole, cs) ← readWhole atEnd cs
  let (fraction, cs) ← readFraction atEnd cs
  let (exponent, cs) ← readExponent atEnd cs
  return (⟨negative, whole, fraction, exponent⟩, cs)

/-- Reads a number that is rounded to a finite one. -/
def readNumeral : Reader Numeral := fun cs => do
  let (n, cs) ← scanNumeral .truncated cs
  if n.isFinite then return (n, cs) else .error .malformed

end LintRatchet.Json
