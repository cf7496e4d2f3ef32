/-!
# Cutting a text at bytes

A position in a text is a count of bytes of its UTF-8 form.  A cut is possible
only between two characters.
-/

namespace LintRatchet.Text

/-- The count of bytes in the UTF-8 form of a text. -/
def byteLength : List Char → Nat
  | [] => 0
  | c :: cs => c.utf8Size + byteLength cs

/-- The text before a position. -/
def takeBytes? : Nat → List Char → Option (List Char)
  | 0, _ => some []
  | _ + 1, [] => none
  | n + 1, c :: cs =>
    if c.utf8Size ≤ n + 1 then (takeBytes? (n + 1 - c.utf8Size) cs).map (c :: ·) else none
termination_by structural _ cs => cs

/-- The text after a position. -/
def dropBytes? : Nat → List Char → Option (List Char)
  | 0, cs => some cs
  | _ + 1, [] => none
  | n + 1, c :: cs => if c.utf8Size ≤ n + 1 then dropBytes? (n + 1 - c.utf8Size) cs else none
termination_by structural _ cs => cs

/-- The text from one position to another. -/
def cut? (cs : List Char) (first last : Nat) : Option (List Char) := do
  takeBytes? (last - first) (← dropBytes? first cs)

end LintRatchet.Text
