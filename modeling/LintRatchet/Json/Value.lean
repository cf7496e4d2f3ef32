/-!
# JSON values

A value as RFC 8259 has it.  The members of an object keep their order, and a
number keeps the digits with which it was written, so nothing is rounded.
-/

namespace LintRatchet.Json

/-- A decimal number as it is written. -/
structure Numeral where
  negative : Bool
  /-- The digits before the point. -/
  whole : List Char
  /-- The digits after the point.  Without a point there are none. -/
  fraction : List Char
  /-- The exponent, if one is written. -/
  exponent : Option Int
deriving DecidableEq, Repr, Inhabited

/-- A JSON value. -/
inductive Value where
  | null
  | bool (b : Bool)
  | number (n : Numeral)
  | text (s : String)
  | array (items : List Value)
  | object (members : List (String × Value))
deriving Repr, Inhabited

/-- The value of a decimal digit. -/
def digitValue (c : Char) : Nat := c.toNat - '0'.toNat

/-- The value of decimal digits. -/
def digitsValue (digits : List Char) : Nat := digits.foldl (fun n c => 10 * n + digitValue c) 0

namespace Numeral

/-- A natural number in digits. -/
def ofNat (n : Nat) : Numeral := ⟨false, Nat.toDigits 10 n, [], none⟩

/-- The number is written with neither a fraction nor an exponent. -/
def isPlain (n : Numeral) : Bool := n.fraction.isEmpty && n.exponent.isNone

/-- The natural number below `2 ^ 32` that is written in digits only. -/
def toUInt32? (n : Numeral) : Option UInt32 :=
  let value := digitsValue n.whole
  if n.isPlain && !n.negative && value < UInt32.size then some (UInt32.ofNat value) else none

end Numeral

namespace Value

/-- A count as a value. -/
def count (n : UInt32) : Value := .number (.ofNat n.toNat)

/-- A list of texts as a value. -/
def texts (ss : List String) : Value := .array (ss.map .text)

/-- A member that is left out when it has no value. -/
def member? {α : Type} (name : String) (encode : α → Value) : Option α → List (String × Value)
  | none => []
  | some a => [(name, encode a)]

end Value

end LintRatchet.Json
