/-!
# Reading bytes that may not be UTF-8

`decodeLossy` reads every byte sequence as text.  A well-formed character is
taken as it is.  Where the bytes are ill-formed, the longest beginning of a
character is replaced by one replacement character and reading goes on after
it.  For instance `E2 82` at the end of the bytes is one replacement, and
`E2 28` is a replacement and a parenthesis.

Reading that refuses ill-formed bytes is `String.fromUTF8?`.
-/

namespace LintRatchet.Text

/-- The character that stands for ill-formed bytes. -/
def replacement : Char := '\uFFFD'

/-- A byte that may only continue a character. -/
def isContinuation (b : UInt8) : Bool := 0x80 ≤ b && b ≤ 0xBF

/-- What may follow a first byte: how many bytes, and the bounds of the next one.  `none` for a
byte that begins no character of several bytes. -/
def following (b : UInt8) : Option (Nat × UInt8 × UInt8) :=
  if 0xC2 ≤ b && b ≤ 0xDF then some (1, 0x80, 0xBF)
  else if b = 0xE0 then some (2, 0xA0, 0xBF)
  else if b = 0xED then some (2, 0x80, 0x9F)
  else if 0xE1 ≤ b && b ≤ 0xEF then some (2, 0x80, 0xBF)
  else if b = 0xF0 then some (3, 0x90, 0xBF)
  else if 0xF1 ≤ b && b ≤ 0xF3 then some (3, 0x80, 0xBF)
  else if b = 0xF4 then some (3, 0x80, 0x8F)
  else none

/-- How many bytes one replacement stands for, where no well-formed character begins. -/
def illFormedLength : List UInt8 → Nat
  | [] => 0
  | b :: rest =>
    match following b, rest with
    | some (count, low, high), c :: rest =>
      if low ≤ c && c ≤ high then
        2 + ((rest.take (count - 1)).takeWhile isContinuation).length
      else 1
    | _, _ => 1

/-- The well-formed character that the bytes begin with. -/
def headChar? (bytes : List UInt8) : Option Char :=
  (bytes.take 4).toByteArray.utf8DecodeChar? 0

theorem illFormedLength_pos (b : UInt8) (rest : List UInt8) : 0 < illFormedLength (b :: rest) := by
  simp only [illFormedLength]
  split
  · split <;> omega
  · omega

/-- The characters that the bytes stand for, with replacements where they are ill-formed. -/
def lossyChars (bytes : List UInt8) : List Char :=
  match bytes with
  | [] => []
  | b :: rest =>
    match headChar? (b :: rest) with
    | some c => c :: lossyChars ((b :: rest).drop c.utf8Size)
    | none => replacement :: lossyChars ((b :: rest).drop (illFormedLength (b :: rest)))
termination_by bytes.length
decreasing_by
  · have := c.utf8Size_pos
    simp only [List.length_drop, List.length_cons]
    omega
  · have := illFormedLength_pos b rest
    simp only [List.length_drop, List.length_cons]
    omega

/-- The text that the bytes stand for, with replacements where they are ill-formed. -/
def decodeLossy (bytes : ByteArray) : String := String.ofList (lossyChars bytes.data.toList)

end LintRatchet.Text
