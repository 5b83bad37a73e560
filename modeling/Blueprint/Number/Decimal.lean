import Blueprint.Number.Binary64
import Blueprint.Number.Numeral

/-!
# Decimal numerals

A decimal numeral has digits, a point among them or none, and a power of ten or none. It stands for
the nearest number of 64 bits.
-/

namespace Blueprint.Number.Binary64

/-- The number nearest to `digits * 10 ^ power`, without large powers where they do not matter. -/
def ofScientific (digits : Nat) (power : Int) : Binary64 :=
  let size := power + (Nat.toDigits 10 digits).length
  if digits = 0 || size < -400 then .zero
  else if 400 < size then .infinite
  else .ofDecimal digits power

/-- The power of ten at the end of a numeral: nothing, or a letter and a whole number. -/
def powerOfTen? : List Char → Option Int
  | [] => some 0
  | c :: rest =>
    if c = 'e' || c = 'E' then
      let (negative, unsigned) := takeSign rest
      let digits := unsigned.map Text.decimalValue?
      if digits.isEmpty || digits.any Option.isNone then none
      else
        let magnitude : Int := ofDigits 10 (digits.filterMap id)
        some (if negative then -magnitude else magnitude)
    else none

/-- The number of a decimal numeral without a sign. -/
def ofNumeral? (text : List Char) : Option Binary64 :=
  let isDigit := fun c => (Text.decimalValue? c).isSome
  let whole := text.takeWhile isDigit
  let rest := text.drop whole.length
  let (places, rest) := match rest with
    | '.' :: more => (more.takeWhile isDigit, more.dropWhile isDigit)
    | more => ([], more)
  if whole.isEmpty && places.isEmpty then none
  else
    (powerOfTen? rest).map fun power =>
      ofScientific (ofDigits 10 ((whole ++ places).filterMap Text.decimalValue?))
        (power - places.length)

end Blueprint.Number.Binary64
