/-!
# Binary64 numbers

A number of the format binary64 that is not negative is a natural number of
units, where a unit is the least positive number of the format, `2 ^ -1074`.
Every operation has an exact result, which is a quotient of natural numbers of
units, and `nearest` rounds it to the number that is nearest.  Of two that are
equally near it takes the one with the even significand.

A significand has fifty-three bits.  So the numbers of a size are the multiples
of a power of two, which is one unit for the small ones.

Numbers of `2 ^ 1024` and more count as infinite.
-/

namespace LintRatchet

/-- A number of the format binary64 that is not negative. -/
structure Binary64 where
  units : Nat
deriving DecidableEq, Repr, Inhabited

namespace Binary64

/-- The quotient as a natural number, rounded to the nearest one, and of two to the even one. -/
def divideRounded (n d : Nat) : Nat :=
  let q := n / d
  let twice := 2 * (n % d)
  if twice < d then q
  else if d < twice then q + 1
  else q + q % 2

/-- The number that is nearest to a quotient of units. -/
def nearest (n d : Nat) : Binary64 :=
  let gap := Nat.pow 2 (Nat.log2 (n / d) - 52)
  ⟨divideRounded n (d * gap) * gap⟩

/-- The units of the number one. -/
def one : Nat := Nat.pow 2 1074

/-- The number is below `2 ^ 1024`. -/
def isFinite (x : Binary64) : Bool := x.units < Nat.pow 2 2098

/-- The number has no fraction. -/
def isWhole (x : Binary64) : Bool := x.units % one = 0

/-- The number is zero. -/
def isZero (x : Binary64) : Bool := x.units = 0

/-! ## Operations -/

/-- A number that counts as infinite. -/
def infinite : Binary64 := ⟨Nat.pow 2 2098⟩

/-- The number nearest to a natural number. -/
def ofNat (n : Nat) : Binary64 := nearest (n * one) 1

/-- The number nearest to a product. -/
def mul (x y : Binary64) : Binary64 := nearest (x.units * y.units) one

/-- The number nearest to a quotient.  The divisor is not zero. -/
def div (x y : Binary64) : Binary64 := nearest (x.units * one) y.units

/-! ## Decimal numbers -/

/-- The number nearest to `mantissa * 10 ^ exponent`.  Beyond four hundred decimal places on either
side there are only zero and infinite numbers. -/
def ofDecimal (mantissa : Nat) (exponent : Int) : Binary64 :=
  let top := exponent + (Nat.toDigits 10 mantissa).length
  if mantissa = 0 || top < -400 then ⟨0⟩
  else if 400 < top then infinite
  else if 0 ≤ exponent then ofNat (mantissa * Nat.pow 10 exponent.toNat)
  else nearest (mantissa * one) (Nat.pow 10 (-exponent).toNat)

/-- The greatest power of ten that is finite. -/
def maxPower : Nat := 308

/-- The number nearest to a power of ten. -/
def powerOfTen (n : Nat) : Binary64 := ofDecimal 1 n

/-- The number divided by a power of ten.  A power that is not finite is divided by in parts, and
each of them is rounded. -/
def overPower (x : Binary64) (n : Nat) : Binary64 :=
  if n ≤ maxPower then x.div (powerOfTen n)
  else if x.isZero then x
  else (x.div (powerOfTen maxPower)).overPower (n - maxPower)
termination_by n
decreasing_by simp only [maxPower] at *; omega

/-- The number times a power of ten.  The power is rounded before the product is. -/
def timesPower (x : Binary64) (exponent : Int) : Binary64 :=
  if exponent < 0 then x.overPower (-exponent).toNat
  else if exponent ≤ maxPower then x.mul (powerOfTen exponent.toNat)
  else if x.isZero then x
  else infinite

end Binary64

end LintRatchet
