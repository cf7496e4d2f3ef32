import LintRatchet.Text.Blank

/-!
# Patterns

A *pattern* is a regular expression.  Nothing is matched with patterns here:
the question is only whether a text is one.  The text stands between braces, so
it has no closing brace, and what needs one is refused.

A pattern is read in a *mode*, which groups of flags change.  In the mode that
is spaced, blank characters and comments between the parts do not count.  In the
mode that is not of Unicode, classes are sets of bytes, and none may hold a byte
from `0x80` on, because such a byte alone is no text.
-/

namespace LintRatchet.Pattern

open LintRatchet.Text

/-- How a part of a pattern is read. -/
structure Mode where
  /-- Blank characters and comments do not count. -/
  spaced : Bool := false
  /-- Classes are sets of characters, and not of bytes. -/
  unicode : Bool := true
deriving DecidableEq, Repr

/-- A text without the blank characters and comments that it starts with. -/
def skipSpaced (inComment : Bool) : List Char → List Char
  | [] => []
  | c :: cs =>
    if inComment then skipSpaced (c ≠ '\n') cs
    else if isBlank c then skipSpaced false cs
    else if c = '#' then skipSpaced true cs
    else c :: cs

/-- A text without what does not count at its start. -/
def Mode.skip (m : Mode) (cs : List Char) : List Char :=
  if m.spaced then skipSpaced false cs else cs

/-- What stands for one character of a match, or for a position in it. -/
inductive Atom where
  /-- A character.  It may be written as the number of a byte. -/
  | literal (c : Char) (isByte : Bool)
  /-- A class.  It may hold the bytes from `0x80` on. -/
  | set (high : Bool)
  | position
deriving DecidableEq, Repr

/-- The atom may stand in a pattern. -/
def Atom.isAllowed (m : Mode) : Atom → Bool
  | literal c isByte => m.unicode || !isByte || c.toNat < 0x80
  | set high => m.unicode || !high
  | position => true

/-- The atom may stand in a class. -/
def Atom.isAllowedInClass (m : Mode) : Atom → Bool
  | literal c _ => m.unicode || c.toNat < 0x80
  | set high => m.unicode || !high
  | position => false

end LintRatchet.Pattern
