/-!
# Ranges of code points

Which characters have a property of Unicode is told by a list of closed ranges
of code points, in ascending order and with gaps between them.  The tables are
those of Unicode 17.
-/

namespace LintRatchet.Text

/-- The character is in one of the closed ranges. -/
def inRanges (ranges : List (Nat × Nat)) (c : Char) : Bool :=
  ranges.any fun (first, last) => first ≤ c.toNat && c.toNat ≤ last

end LintRatchet.Text
