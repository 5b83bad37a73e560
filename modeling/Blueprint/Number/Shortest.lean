import Blueprint.Number.Binary64

/-!
# The shortest decimal text of a binary number

The text of a number has the fewest digits that read back as the number, and of all such digits the
nearest to it. They are written positionally when the decimal point falls between four places before
and sixteen after the first digit, and with an exponent of at least two digits otherwise. Only exact
whole-number arithmetic is used.
-/

namespace Blueprint.Number.Binary64

/-- Decimal digits and the power of ten that they are multiplied with. -/
structure Decimal where
  /-- The digits as one whole number. -/
  digits : Nat
  /-- The power of ten. -/
  power : Int
  deriving DecidableEq, Repr

/-- A fraction with its denominator. -/
structure Fraction where
  /-- The part above the line. -/
  numerator : Nat
  /-- The part below the line. -/
  denominator : Nat

/-- The fraction `number * 2 ^ exponent`. -/
def Fraction.ofBinary (number : Nat) (exponent : Int) : Fraction :=
  if exponent < 0 then ⟨number, Nat.pow 2 (-exponent).toNat⟩
  else ⟨number * Nat.pow 2 exponent.toNat, 1⟩

/-- The fraction `digits * 10 ^ power`. -/
def Fraction.ofDecimal (value : Decimal) : Fraction :=
  if value.power < 0 then ⟨value.digits, Nat.pow 10 (-value.power).toNat⟩
  else ⟨value.digits * Nat.pow 10 value.power.toNat, 1⟩

/-- Whether the first fraction is less than the second. -/
def Fraction.less (a b : Fraction) : Bool :=
  decide (a.numerator * b.denominator < b.numerator * a.denominator)

/-- The fractions that are rounded to one number: between two ends, which belong to them or not. -/
structure Neighbourhood where
  /-- The lower end. -/
  low : Fraction
  /-- The upper end. -/
  high : Fraction
  /-- Whether the ends are rounded to the number too. -/
  closed : Bool

/-- The fractions that are rounded to `significand * 2 ^ exponent`: half the way to the numbers next
to it. The number below a power of two is nearer. -/
def neighbourhood (significand : Nat) (exponent : Int) : Neighbourhood :=
  let below := if significand = Nat.pow 2 52 && decide (minExponent < exponent) then 1 else 2
  { low := .ofBinary (4 * significand - below) (exponent - 2)
    high := .ofBinary (4 * significand + 2) (exponent - 2)
    closed := significand % 2 = 0 }

/-- Whether a fraction is rounded to the number. -/
def Neighbourhood.contains (n : Neighbourhood) (x : Fraction) : Bool :=
  if n.closed then !x.less n.low && !n.high.less x else n.low.less x && x.less n.high

/-- The decimal next below a fraction among the multiples of a power of ten. -/
def floorAt (x : Fraction) (power : Int) : Decimal :=
  if power < 0 then ⟨x.numerator * Nat.pow 10 (-power).toNat / x.denominator, power⟩
  else ⟨x.numerator / (x.denominator * Nat.pow 10 power.toNat), power⟩

/-- Of the two multiples of a power of ten next to a fraction, the nearest one that is rounded to
the number. -/
def nearestAt (n : Neighbourhood) (x : Fraction) (power : Int) : Option Decimal :=
  let lower := floorAt x power
  let upper : Decimal := { lower with digits := lower.digits + 1 }
  match n.contains (.ofDecimal lower), n.contains (.ofDecimal upper) with
  | false, false => none
  | true, false => some lower
  | false, true => some upper
  | true, true =>
    let middle := Fraction.ofDecimal ⟨10 * lower.digits + 5, power - 1⟩
    if x.less middle then some lower
    else if middle.less x then some upper
    else if lower.digits % 2 = 0 then some lower else some upper

/-- The count of digits of a whole number. -/
def digitCount (value : Nat) : Nat := (Nat.toDigits 10 value).length

/-- The first power of ten, from the given one downwards, with a multiple that is rounded to the
number. -/
def searchDown (n : Neighbourhood) (x : Fraction) : Nat → Int → Decimal
  | 0, power => floorAt x power
  | steps + 1, power =>
    match nearestAt n x power with
    | some value => value
    | none => searchDown n x steps (power - 1)

/-- The power of ten of the first digit of a positive fraction, or one more. -/
def leadingPower (x : Fraction) : Int :=
  (digitCount x.numerator : Int) - (digitCount x.denominator : Int)

/-- The fewest digits that read back as the number; seventeen always do. -/
def shortest (significand : Nat) (exponent : Int) : Decimal :=
  let x := Fraction.ofBinary significand exponent
  searchDown (neighbourhood significand exponent) x 19 (leadingPower x)

/-- The digits without the zeros at their end, and the count of places before the point. -/
def digitsAndPoint (value : Decimal) : List Char × Int :=
  let all := Nat.toDigits 10 value.digits
  ((all.reverse.dropWhile (· == '0')).reverse, (all.length : Int) + value.power)

/-- The text of an exponent: its sign and at least two digits. -/
def exponentText (exponent : Int) : List Char :=
  let digits := Nat.toDigits 10 exponent.natAbs
  (if exponent < 0 then '-' else '+') :: (if digits.length < 2 then '0' :: digits else digits)

/-- The text of digits with the point after the given count of places. -/
def layout (digits : List Char) (point : Int) : List Char :=
  if -4 < point && decide (point ≤ 16) then
    if point ≤ 0 then '0' :: '.' :: (List.replicate (-point).toNat '0' ++ digits)
    else
      let places := point.toNat
      if digits.length ≤ places then
        digits ++ List.replicate (places - digits.length) '0' ++ ['.', '0']
      else digits.take places ++ '.' :: digits.drop places
  else
    match digits with
    | [] => []
    | [digit] => digit :: 'e' :: exponentText (point - 1)
    | digit :: more => digit :: '.' :: (more ++ 'e' :: exponentText (point - 1))

/-- The text of a number. -/
def text : Binary64 → String
  | .infinite => "inf"
  | .finite significand exponent =>
    if significand = 0 then "0.0"
    else
      let (digits, point) := digitsAndPoint (shortest significand exponent)
      String.ofList (layout digits point)

end Blueprint.Number.Binary64
