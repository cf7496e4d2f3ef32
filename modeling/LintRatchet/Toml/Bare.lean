import LintRatchet.Binary64
import LintRatchet.Json.Quoted
import LintRatchet.Text.Split
import LintRatchet.Toml.Value

/-!
# Bare values

A value that is neither quoted nor bracketed is a single word of letters,
digits and the characters `+ - _ . :`.  It is a truth value, a number, or a date
or time.

* An integer is decimal with an optional sign and no leading zero, or it starts
  with `0x`, `0o` or `0b`.  Underscores may separate digits.  It fits in
  sixty-four bits.
* A float has a fraction or an exponent, and it is not beyond the largest
  binary64 number.  `inf` and `nan` are floats.
* A date has a day that its month has in that year.  A time may have a fraction
  of a second, and after a date also an offset.
-/

namespace LintRatchet.Toml

open LintRatchet.Text

/-- A character of a bare value. -/
def isBareChar (c : Char) : Bool := c.isAlphanum || ['+', '-', '_', '.', ':'].contains c

/-! ## Numbers -/

/-- Digits with underscores between them. -/
def areDigits (isDigit : Char → Bool) (cs : List Char) : Bool :=
  (split '_' cs).all fun group => !group.isEmpty && group.all isDigit

/-- The value of digits with underscores between them. -/
def digitsValue (base : Nat) (cs : List Char) : Nat :=
  (cs.filterMap Json.hexValue?).foldl (fun n d => n * base + d) 0

/-- A word without its sign, and whether the sign is a minus. -/
def unsigned : List Char → Bool × List Char
  | '-' :: cs => (true, cs)
  | '+' :: cs => (false, cs)
  | cs => (false, cs)

/-- Decimal digits without a leading zero. -/
def isDecimal (cs : List Char) : Bool :=
  areDigits Char.isDigit cs && (cs.head? ≠ some '0' || cs.length = 1)

/-- The word is an integer that fits in sixty-four bits. -/
def isInteger (cs : List Char) : Bool :=
  match cs with
  | '0' :: 'x' :: ds => areDigits (fun c => (Json.hexValue? c).isSome) ds && fits 16 ds
  | '0' :: 'o' :: ds => areDigits (fun c => '0' ≤ c && c ≤ '7') ds && fits 8 ds
  | '0' :: 'b' :: ds => areDigits (fun c => c = '0' || c = '1') ds && fits 2 ds
  | _ =>
    let (negative, ds) := unsigned cs
    isDecimal ds && digitsValue 10 ds < Nat.pow 2 63 + (if negative then 1 else 0)
where
  fits (base : Nat) (ds : List Char) : Bool := digitsValue base ds < Nat.pow 2 63

/-- A character of the digits of a float. -/
def isDigitOrGap (c : Char) : Bool := c.isDigit || c = '_'

/-- The fraction at the front of a word: its digits, and the rest of the word. -/
def fraction? : List Char → Option (List Char × List Char)
  | '.' :: cs => some (cs.takeWhile isDigitOrGap, cs.dropWhile isDigitOrGap)
  | _ => none

/-- The exponent that a word is: its sign and digits. -/
def exponent? : List Char → Option (Bool × List Char)
  | c :: cs => if c = 'e' || c = 'E' then some (unsigned cs) else none
  | [] => none

/-- The word is a float with a fraction or an exponent, and not too large. -/
def isFiniteFloat (cs : List Char) : Bool :=
  let (negative, cs) := unsigned cs
  let whole := cs.takeWhile isDigitOrGap
  let rest := cs.dropWhile isDigitOrGap
  let (decimals, rest) := match fraction? rest with
    | some (ds, rest) => (some ds, rest)
    | none => (none, rest)
  let power := exponent? rest
  let places := ((decimals.getD []).filter Char.isDigit).length
  let shift := (power.map fun (down, ds) =>
    let n : Int := digitsValue 10 ds
    if down then -n else n).getD 0
  let value := Binary64.ofDecimal (digitsValue 10 (whole ++ decimals.getD [])) (shift - places)
  isDecimal whole && decimals.all (areDigits Char.isDigit) &&
    power.all (fun p => areDigits Char.isDigit p.2) && (power.isSome || rest.isEmpty) &&
    (decimals.isSome || power.isSome) && (negative || value.isFinite)

/-- The word is a float. -/
def isFloat (cs : List Char) : Bool :=
  let word := (unsigned cs).2
  word = ['i', 'n', 'f'] || word = ['n', 'a', 'n'] || isFiniteFloat cs

/-! ## Dates and times -/

/-- The number that a word of a fixed count of digits is. -/
def fixed? (count : Nat) (cs : List Char) : Option Nat :=
  if cs.length = count && cs.all Char.isDigit then some (digitsValue 10 cs) else none

/-- How many days a month has. -/
def daysIn (year month : Nat) : Nat :=
  if month = 2 then
    if year % 4 = 0 && (year % 100 ≠ 0 || year % 400 = 0) then 29 else 28
  else if [4, 6, 9, 11].contains month then 30
  else 31

/-- The word is a day that there is. -/
def isDate (cs : List Char) : Bool :=
  match split '-' cs with
  | [y, m, d] =>
    match fixed? 4 y, fixed? 2 m, fixed? 2 d with
    | some y, some m, some d => 1 ≤ m && m ≤ 12 && 1 ≤ d && d ≤ daysIn y m
    | _, _, _ => false
  | _ => false

/-- The word is an hour and a minute. -/
def isHourMinute (cs : List Char) : Bool :=
  match split ':' cs with
  | [h, m] =>
    match fixed? 2 h, fixed? 2 m with
    | some h, some m => h ≤ 23 && m ≤ 59
    | _, _ => false
  | _ => false

/-- The word is a second with its fraction, if it has one. -/
def isSecond (cs : List Char) : Bool :=
  match split '.' cs with
  | [s] => (fixed? 2 s).any (· ≤ 60)
  | [s, f] => (fixed? 2 s).any (· ≤ 60) && !f.isEmpty && f.all Char.isDigit
  | _ => false

/-- The word is a time of day with a second. -/
def isTime (cs : List Char) : Bool :=
  isHourMinute (cs.take 5) && (cs.drop 5).head? = some ':' && isSecond (cs.drop 6)

/-- A character of a time without an offset. -/
def isTimeChar (c : Char) : Bool := c.isDigit || c = ':' || c = '.'

/-- The word is an offset, or there is none. -/
def isOffset : List Char → Bool
  | [] => true
  | [c] => c = 'Z' || c = 'z'
  | c :: cs => (c = '+' || c = '-') && isHourMinute cs

/-- The word is a time that may have an offset. -/
def isOffsetTime (cs : List Char) : Bool :=
  isTime (cs.takeWhile isTimeChar) && isOffset (cs.dropWhile isTimeChar)

/-- The word is a date, a time, or both with a `T` between them. -/
def isMoment (cs : List Char) : Bool :=
  isTime cs || isDate cs ||
    (isDate (cs.take 10) && ((cs.drop 10).head? = some 'T' || (cs.drop 10).head? = some 't') &&
      isOffsetTime (cs.drop 11))

/-! ## Words -/

/-- The value that a word is. -/
def bareValue? (cs : List Char) : Option Value :=
  if cs = ['t', 'r', 'u', 'e'] then some (.bool true)
  else if cs = ['f', 'a', 'l', 's', 'e'] then some (.bool false)
  else if isInteger cs || isFloat cs then some .number
  else if isMoment cs then some .moment
  else none

/-- A text without the time that follows a date and a space. -/
def dropTime (word rest : List Char) : List Char :=
  match rest with
  | ' ' :: cs =>
    if isDate word && isOffsetTime (cs.takeWhile isBareChar) then cs.dropWhile isBareChar
    else rest
  | _ => rest

/-- Reads a bare value.  A date may be followed by a space and a time. -/
def readBare (cs : List Char) : Option (Value × List Char) := do
  let word := cs.takeWhile isBareChar
  let v ← bareValue? word
  return (v, dropTime word (cs.dropWhile isBareChar))

end LintRatchet.Toml
