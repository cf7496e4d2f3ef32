import LintRatchet.Binary64
import LintRatchet.Json.Value

/-!
# Numbers as they are rounded

A number that is written in digits only and fits in sixty-four bits is taken as
it is.  Any other number is rounded to a binary64 number, and that is done in
two steps.  First its digits make a natural number for as long as that fits in
sixty-four bits.  Digits before the point that are left over count as zeros, and
digits after the point that are left over are dropped.  Then this number is
rounded, and the power of ten that it lacks is multiplied or divided by.

So the result is not always the binary64 number nearest to what is written.
Whether a number is finite, whole or negative is said of the result.
-/

namespace LintRatchet.Json

/-- Takes digits to the end of a number while it stays below `2 ^ 64`: the number that they make,
and the digits that are left. -/
def takeDigits (n : Nat) : List Char → Nat × List Char
  | [] => (n, [])
  | c :: cs =>
    let next := 10 * n + digitValue c
    if next < Nat.pow 2 64 then takeDigits next cs else (n, c :: cs)

namespace Numeral

/-- The number that the digits make, and how many powers of ten it lacks. -/
def significand (n : Numeral) : Nat × Int :=
  let (head, leftBefore) := takeDigits 0 n.whole
  let (all, leftAfter) := takeDigits head n.fraction
  let taken : Int := n.fraction.length - leftAfter.length
  (all, n.exponent.getD 0 + leftBefore.length - taken)

/-- The number without its sign, rounded. -/
def rounded (n : Numeral) : Binary64 :=
  let (all, lacking) := n.significand
  (Binary64.ofNat all).timesPower lacking

/-- The number is written in digits only and fits in sixty-four bits. -/
def isWord (n : Numeral) : Bool := n.isPlain && digitsValue n.whole < Nat.pow 2 64

/-- The number is not rounded to an infinite one. -/
def isFinite (n : Numeral) : Bool := n.isWord || n.rounded.isFinite

/-- The number is whole once it is rounded. -/
def isWhole (n : Numeral) : Bool := n.isPlain || n.rounded.isWhole

/-- The number is not below zero once it is rounded. -/
def isNonNegative (n : Numeral) : Bool := !n.negative || n.rounded.isZero

end Numeral

end LintRatchet.Json
