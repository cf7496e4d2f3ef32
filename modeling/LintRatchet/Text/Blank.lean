/-!
# Blank characters

A character is *blank* when Unicode gives it the property `White_Space`.  There
are twenty-five of them.  `trim` removes the blank characters at both ends of a
text and nothing else.
-/

namespace LintRatchet.Text

/-- The code points with the Unicode property `White_Space`. -/
def isBlank (c : Char) : Bool :=
  let n := c.toNat
  (9 ≤ n && n ≤ 13) || n = 0x20 || n = 0x85 || n = 0xA0 || n = 0x1680 ||
    (0x2000 ≤ n && n ≤ 0x200A) || n = 0x2028 || n = 0x2029 || n = 0x202F || n = 0x205F ||
    n = 0x3000

/-- A text without the blank characters it starts with. -/
def trimStart (cs : List Char) : List Char := cs.dropWhile isBlank

/-- A text without the blank characters it ends with. -/
def trimEnd (cs : List Char) : List Char := (cs.reverse.dropWhile isBlank).reverse

/-- A text without the blank characters at its two ends. -/
def trim (cs : List Char) : List Char := trimEnd (trimStart cs)

end LintRatchet.Text
