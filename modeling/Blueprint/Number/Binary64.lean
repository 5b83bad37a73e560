/-!
# Binary floating-point numbers of 64 bits

A finite number is kept exactly, as a significand below 2^53 times a power of two. Fractions are
rounded to the nearest number, and to the one with the even significand when two are equally near.
Signs are not needed: literals have none.
-/

namespace Blueprint.Number

/-- A number of the format without its sign. -/
inductive Binary64 where
  /-- The number `significand * 2 ^ exponent`. -/
  | finite (significand : Nat) (exponent : Int)
  /-- What lies beyond the greatest number. -/
  | infinite
  deriving DecidableEq, Repr

namespace Binary64

/-- The significands are smaller than this. -/
def significandLimit : Nat := Nat.pow 2 53

/-- The least exponent of a finite number. -/
def minExponent : Int := -1074

/-- The greatest exponent of a finite number. -/
def maxExponent : Int := 971

/-- The number zero. -/
def zero : Binary64 := .finite 0 minExponent

/-- The quotient rounded to the nearest whole number, a half to the even one. -/
def roundQuotient (numerator denominator : Nat) : Nat :=
  let quotient := numerator / denominator
  let twice := 2 * (numerator % denominator)
  if twice < denominator then quotient
  else if denominator < twice then quotient + 1
  else if quotient % 2 = 0 then quotient else quotient + 1

/-- The quotient of a fraction and a power of two, as a fraction. -/
def scaled (numerator denominator : Nat) (exponent : Int) : Nat × Nat :=
  if exponent < 0 then (numerator * Nat.pow 2 (-exponent).toNat, denominator)
  else (numerator, denominator * Nat.pow 2 exponent.toNat)

/-- The exponent for a fraction: the least one for which the significand is small enough. -/
def exponentFor (numerator denominator : Nat) : Int :=
  let guess : Int := (Nat.log2 numerator : Int) - (Nat.log2 denominator : Int) - 53
  let (n, d) := scaled numerator denominator guess
  let exponent := if n / d < significandLimit then guess else guess + 1
  max exponent minExponent

/-- The number nearest to a fraction. -/
def ofFraction (numerator denominator : Nat) : Binary64 :=
  if numerator = 0 || denominator = 0 then zero
  else
    let exponent := exponentFor numerator denominator
    let (n, d) := scaled numerator denominator exponent
    let significand := roundQuotient n d
    let (significand, exponent) :=
      if significand < significandLimit then (significand, exponent)
      else (significand / 2, exponent + 1)
    if maxExponent < exponent then infinite else .finite significand exponent

/-- The number nearest to `digits * 10 ^ power`. -/
def ofDecimal (digits : Nat) (power : Int) : Binary64 :=
  if power < 0 then ofFraction digits (Nat.pow 10 (-power).toNat)
  else ofFraction (digits * Nat.pow 10 power.toNat) 1

end Binary64

end Blueprint.Number
