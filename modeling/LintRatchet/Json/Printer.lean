import LintRatchet.Digest.Hex
import LintRatchet.Json.Value

/-!
# Writing JSON

One printer writes a value in every layout.  A layout says which blank text
stands before each item and each closing bracket, and after the colon of a
member.  `Layout.compact` writes none.  `Layout.pretty` puts each item on a line
of its own, indented by two spaces per level, and a space after each colon.

In a string a quote, a backslash and the control characters are escaped, five
of them by a letter and the others as `\u00XX`.  Every other character stands
for itself.
-/

namespace LintRatchet.Json

/-! ## Layouts -/

/-- The blank text between the tokens of a value. -/
structure Layout where
  /-- What stands before an item or a closing bracket at a depth. -/
  gap : Nat → List Char
  /-- What stands after the colon of a member. -/
  afterColon : List Char

/-- No blank text at all. -/
def Layout.compact : Layout := ⟨fun _ => [], []⟩

/-- Each item on a line of its own, indented by two spaces per level. -/
def Layout.pretty : Layout := ⟨fun depth => '\n' :: List.replicate (2 * depth) ' ', [' ']⟩

/-! ## Scalars -/

/-- A character as it stands between quotes. -/
def escape (c : Char) : List Char :=
  if c = '"' then ['\\', '"']
  else if c = '\\' then ['\\', '\\']
  else if c = '\n' then ['\\', 'n']
  else if c = '\r' then ['\\', 'r']
  else if c = '\t' then ['\\', 't']
  else if c = '\x08' then ['\\', 'b']
  else if c = '\x0c' then ['\\', 'f']
  else if c.toNat < 0x20 then
    ['\\', 'u', '0', '0', Digest.hexDigit (c.toNat / 16), Digest.hexDigit (c.toNat % 16)]
  else [c]

/-- A text between quotes. -/
def quoted (s : String) : List Char := '"' :: (s.toList.flatMap escape ++ ['"'])

/-- A number with the digits that it has. -/
def Numeral.write (n : Numeral) : List Char :=
  (if n.negative then ['-'] else []) ++ (n.whole ++
    ((if n.fraction.isEmpty then [] else '.' :: n.fraction) ++
      (match n.exponent with
        | none => []
        | some e => 'e' :: (toString e).toList)))

/-! ## Values -/

mutual

/-- A value in a layout, at a depth. -/
def Value.write (l : Layout) (depth : Nat) : Value → List Char
  | .null => ['n', 'u', 'l', 'l']
  | .bool true => ['t', 'r', 'u', 'e']
  | .bool false => ['f', 'a', 'l', 's', 'e']
  | .number n => n.write
  | .text s => quoted s
  | .array [] => ['[', ']']
  | .array (v :: vs) =>
    '[' :: (l.gap (depth + 1) ++ (Value.write l (depth + 1) v ++
      (writeItems l (depth + 1) vs ++ (l.gap depth ++ [']']))))
  | .object [] => ['\x7b', '\x7d']
  | .object ((k, v) :: ms) =>
    '\x7b' :: (l.gap (depth + 1) ++ (quoted k ++ (':' :: (l.afterColon ++
      (Value.write l (depth + 1) v ++
        (writeMembers l (depth + 1) ms ++ (l.gap depth ++ ['\x7d'])))))))

/-- Items after the first, each with the comma before it. -/
def writeItems (l : Layout) (depth : Nat) : List Value → List Char
  | [] => []
  | v :: vs => ',' :: (l.gap depth ++ (Value.write l depth v ++ writeItems l depth vs))

/-- Members after the first, each with the comma before it. -/
def writeMembers (l : Layout) (depth : Nat) : List (String × Value) → List Char
  | [] => []
  | (k, v) :: ms =>
    ',' :: (l.gap depth ++ (quoted k ++ (':' :: (l.afterColon ++
      (Value.write l depth v ++ writeMembers l depth ms)))))

end

/-- A count is written in digits only, whatever the layout. -/
theorem write_count (l : Layout) (depth : Nat) (n : UInt32) :
    (Value.count n).write l depth = Nat.toDigits 10 n.toNat := by
  rw [Value.count, Value.write]
  simp [Numeral.write, Numeral.ofNat]

/-- A value on one line. -/
def Value.compact (v : Value) : String := String.ofList (v.write .compact 0)

/-- A value over several lines, indented by two spaces per level. -/
def Value.pretty (v : Value) : String := String.ofList (v.write .pretty 0)

end LintRatchet.Json
