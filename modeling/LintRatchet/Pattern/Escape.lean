import LintRatchet.Json.Quoted
import LintRatchet.Pattern.Basic

/-!
# Escapes in patterns

After a backslash a letter has a meaning of its own, and any other ASCII
character that is no digit stands for itself.  A letter without a meaning is
refused.
-/

namespace LintRatchet.Pattern

/-- The letters that stand for a control character. -/
def controls : List (Char × Char) :=
  [('a', '\x07'), ('f', '\x0c'), ('t', '\t'), ('n', '\n'), ('r', '\r'), ('v', '\x0b')]

/-- The character stands for itself after a backslash. -/
def isPunctuation (c : Char) : Bool :=
  c.toNat < 0x80 && !c.isAlphanum && c ≠ '<' && c ≠ '>'

/-- Reads the given count of hexadecimal digits. -/
def readHex (m : Mode) : (count value : Nat) → List Char → Option (Nat × List Char)
  | 0, value, cs => some (value, cs)
  | count + 1, value, cs =>
    match m.skip cs with
    | [] => none
    | c :: cs => do
      let d ← Json.hexValue? c
      readHex m count (16 * value + d) cs

/-- Reads a character that is given by its number. -/
def readNumber (m : Mode) (count : Nat) (cs : List Char) : Option (Atom × List Char) := do
  let (n, cs) ← readHex m count 0 cs
  if n.isValidChar then return (.literal (Char.ofNat n) (count = 2), cs) else none

/-- Reads the name of a general category: one letter in any case. -/
def readCategory (m : Mode) (cs : List Char) : Option (Atom × List Char) :=
  match m.skip cs with
  | [] => none
  | c :: cs =>
    if m.unicode && ['c', 'l', 'm', 'n', 'p', 's', 'z'].contains c.toLower then
      some (.set true, cs)
    else none

/-- Reads what follows a backslash.  Words are a matter of bytes here: where they end is not asked
of the characters of Unicode. -/
def readEscape (m : Mode) : List Char → Option (Atom × List Char)
  | [] => none
  | c :: cs =>
    if c = 'x' then readNumber m 2 cs
    else if c = 'u' then readNumber m 4 cs
    else if c = 'U' then readNumber m 8 cs
    else if c = 'p' || c = 'P' then readCategory m cs
    else if ['d', 's', 'w'].contains c then some (.set false, cs)
    else if ['D', 'S', 'W'].contains c then some (.set true, cs)
    else if isPunctuation c then some (.literal c false, cs)
    else if c = 'A' || c = 'z' then some (.position, cs)
    else if ['b', 'B', '<', '>'].contains c then
      if m.unicode then none else some (.position, cs)
    else (controls.lookup c).map fun control => (.literal control false, cs)

end LintRatchet.Pattern
