import Blueprint.Number.Decimal
import Blueprint.Number.Shortest

/-!
# Sums and products of 64-bit numbers

A sum or a product is the exact one, rounded once. It is undefined where infinities cancel, or where
nothing is multiplied with an infinity.
-/

namespace Blueprint.Number

/-- A number of 64 bits with its sign; zero has a sign too. -/
inductive Signed where
  /-- A number with its magnitude. -/
  | number (negative : Bool) (magnitude : Binary64)
  /-- What is no number. -/
  | undefined
  deriving DecidableEq, Repr

namespace Signed

/-- The number zero. -/
def zero : Signed := .number false .zero

/-- The number nearest to a whole number, unless it is too large. -/
def ofInt? (value : Int) : Option Signed :=
  match Binary64.ofFraction value.natAbs 1 with
  | .infinite => none
  | magnitude => some (.number (decide (value < 0)) magnitude)

/-- The number nearest to a whole number times a power of two; an exact zero has the given sign. -/
def ofScaled (value : Int) (exponent : Int) (zeroSign : Bool) : Signed :=
  let negative := if value = 0 then zeroSign else decide (value < 0)
  let magnitude :=
    if exponent < 0 then Binary64.ofFraction value.natAbs (Nat.pow 2 (-exponent).toNat)
    else Binary64.ofFraction (value.natAbs * Nat.pow 2 exponent.toNat) 1
  .number negative magnitude

/-- The same number with the other sign. -/
def neg : Signed → Signed
  | .number negative magnitude => .number (!negative) magnitude
  | .undefined => .undefined

/-- A significand with its sign, for a smaller exponent. -/
def aligned (negative : Bool) (significand : Nat) (exponent common : Int) : Int :=
  let value : Int := significand * Nat.pow 2 (exponent - common).toNat
  if negative then -value else value

/-- The sum of two numbers. -/
def add : Signed → Signed → Signed
  | .number n (.finite a e), .number m (.finite b f) =>
    let common := min e f
    ofScaled (aligned n a e common + aligned m b f common) common (n && m)
  | .number n .infinite, .number m .infinite =>
    if n = m then .number n .infinite else .undefined
  | .number n .infinite, .number _ (.finite _ _) => .number n .infinite
  | .number _ (.finite _ _), .number m .infinite => .number m .infinite
  | .undefined, _ => .undefined
  | .number _ _, .undefined => .undefined

/-- The product of two numbers. -/
def mul : Signed → Signed → Signed
  | .number n (.finite a e), .number m (.finite b f) =>
    let value : Int := a * b
    ofScaled (if n = m then value else -value) (e + f) (n != m)
  | .number n .infinite, .number m (.finite b _) =>
    if b = 0 then .undefined else .number (n != m) .infinite
  | .number n (.finite a _), .number m .infinite =>
    if a = 0 then .undefined else .number (n != m) .infinite
  | .number n .infinite, .number m .infinite => .number (n != m) .infinite
  | .undefined, _ => .undefined
  | .number _ _, .undefined => .undefined

/-- The number that a text writes: a decimal numeral or a word, with a sign and blanks around it if
they are there. -/
def ofText? (text : List Char) : Option Signed :=
  let (negative, unsigned) := takeSign (withoutMargin text)
  let word := String.ofList (unsigned.map Char.toLower)
  if word = "inf" || word = "infinity" then some (.number negative .infinite)
  else if word = "nan" then some .undefined
  else (Binary64.ofNumeral? unsigned).map (.number negative)

/-- The text of a number. -/
def text : Signed → String
  | .number negative magnitude => (if negative then "-" else "") ++ magnitude.text
  | .undefined => "nan"

/-- The value of a finite number, as a whole number over a natural one. -/
def fraction? : Signed → Option (Int × Nat)
  | .number negative (.finite significand exponent) =>
    let signed := fun value : Nat => if negative then -(value : Int) else value
    some (if exponent < 0 then (signed significand, Nat.pow 2 (-exponent).toNat)
      else (signed (significand * Nat.pow 2 exponent.toNat), 1))
  | _ => none

end Signed

end Blueprint.Number
