/-!
# Blanks, comments and line ends

A blank is a space or a tab.  A line ends with a line feed, which a carriage
return may precede.  A comment goes from `#` to the end of its line and holds no
control character but tabs.
-/

namespace LintRatchet.Toml

/-- Takes a value off the front of a text, or refuses the text. -/
abbrev Reader (α : Type) := List Char → Option (α × List Char)

/-- A space or a tab. -/
def isBlank (c : Char) : Bool := c = ' ' || c = '\t'

/-- A character that may stand in a comment. -/
def isPrintable (c : Char) : Bool := c = '\t' || (' ' ≤ c && c ≠ '\x7f')

/-- A text without the blanks it starts with. -/
def skipBlanks (cs : List Char) : List Char := cs.dropWhile isBlank

/-- A text without the comment it starts with. -/
def skipComment : List Char → List Char
  | '#' :: cs => cs.dropWhile isPrintable
  | cs => cs

/-- Reads the end of a line. -/
def newline? : List Char → Option (List Char)
  | '\n' :: cs => some cs
  | '\r' :: '\n' :: cs => some cs
  | _ => none

/-- Reads the rest of a line that holds nothing more. -/
def lineEnd? (cs : List Char) : Option (List Char) :=
  match skipComment (skipBlanks cs) with
  | [] => some []
  | cs => newline? cs

/-- A text without the blanks, comments and line ends that it starts with. -/
def skipGap (inComment : Bool) : List Char → List Char
  | [] => []
  | '\n' :: cs => skipGap false cs
  | '\r' :: '\n' :: cs => skipGap false cs
  | c :: cs =>
    if inComment then
      if isPrintable c then skipGap true cs else c :: cs
    else if isBlank c then skipGap false cs
    else if c = '#' then skipGap true cs
    else c :: cs

end LintRatchet.Toml
