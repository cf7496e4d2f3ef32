import LintRatchet.Digest.Hex

/-!
# Text for a terminal

A terminal takes some control characters for orders.  Where text from elsewhere
is shown on one, these characters are written as numbers: the bell, the
backspace, the form feed, the escape and the delete character in the form `\x1b`,
and those from `0x80` to `0x9F` in the form `\u{9b}`.
-/

namespace LintRatchet.Text

/-- The ASCII characters that a terminal takes for orders. -/
def terminalOrders : List Char := ['\x07', '\x08', '\x0c', '\x1b', '\x7f']

/-- A character as it is shown on a terminal. -/
def shownChar (c : Char) : List Char :=
  let digits := [Digest.hexDigit (c.toNat / 16), Digest.hexDigit (c.toNat % 16)]
  if terminalOrders.contains c then '\\' :: 'x' :: digits
  else if 0x80 ≤ c.toNat && c.toNat ≤ 0x9F then '\\' :: 'u' :: '\x7b' :: (digits ++ ['\x7d'])
  else [c]

/-- A text as it is shown on a terminal. -/
def shownText (s : String) : String := String.ofList (s.toList.flatMap shownChar)

end LintRatchet.Text
