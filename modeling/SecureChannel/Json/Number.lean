/-!
# Numbers as JSON writes them

A number is kept as it is written, as a decimal coefficient and a power of ten. Only two things are
asked of it: which natural number it is, and whether it has a finite value.

Values are doubles, and a value is found in three steps, each of which may round. The leading digits
of the coefficient that fit a word become a double, the power of ten that they count becomes a
double, and the product of the two becomes a double. `Number.isFinite` says whether the last step
stays below infinity. The rounded steps are not one exact step: just below the largest double there
are numbers whose product is rounded up to infinity.
-/

namespace SecureChannel.Json

/-- A number as written: `coefficient · 10 ^ scale`, negated if there is a minus sign. -/
structure Number where
  negative : Bool
  /-- There is neither a fraction nor an exponent. -/
  whole : Bool
  coefficient : Nat
  /-- The exponent less the number of digits after the point. -/
  scale : Int
deriving DecidableEq

namespace Number

/-- The nearest natural number of at most 53 binary digits in front of its zeros. A number halfway
between two goes to the even multiple. -/
def rounded (n : Nat) : Nat :=
  let unit := Nat.pow 2 (n.log2 - 52)
  let lower := n / unit
  let excess := n % unit
  if 2 * excess < unit ∨ 2 * excess = unit ∧ lower % 2 = 0 then lower * unit
  else (lower + 1) * unit

/-- From this value on, rounding to a double gives infinity: it is halfway between the largest
double and the power of two behind it. -/
def limit : Nat := Nat.pow 2 1024 - Nat.pow 2 970

def maxExponent : Nat := 308

/-- The leading digits of a coefficient that fit a 64-bit word, with the power of ten that their
last one counts. The digits behind them are dropped. -/
def leading (coefficient : Nat) (scale : Int) : Nat × Int :=
  if coefficient < UInt64.size then (coefficient, scale)
  else leading (coefficient / 10) (scale + 1)
termination_by coefficient
decreasing_by
  have large : UInt64.size ≤ coefficient := Nat.not_lt.mp ‹_›
  exact Nat.div_lt_self (Nat.lt_of_lt_of_le (by decide) large) (by decide)

/-- Whether the value is finite. Zero is, whatever its exponent, and so is every number whose digits
count a power of ten below one; no large power is computed for either. -/
def isFinite (n : Number) : Bool :=
  let (digits, exponent) := leading n.coefficient n.scale
  digits = 0 || exponent < 0 ||
    (exponent ≤ maxExponent && rounded digits * rounded (Nat.pow 10 exponent.toNat) < limit)

/-- The value, if it is a natural number written without sign, fraction and exponent. -/
def natural? (n : Number) : Option Nat :=
  if n.whole && !n.negative then some n.coefficient else none

end Number

end SecureChannel.Json
