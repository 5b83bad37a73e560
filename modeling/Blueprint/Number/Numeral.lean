import Blueprint.Text.Blank
import Blueprint.Text.Digit
import Blueprint.Text.Quoted

/-!
# Numerals

Whole numbers are read from decimal digits of any script. A numeral of more than 4300 digits is
refused, leading zeros counted; that limit does not hold for numerals to the bases two, eight and
sixteen. The same limit holds for the digits that are written.
-/

namespace Blueprint.Number

open Blueprint.Text

/-- The greatest count of digits that is read or written. -/
def digitLimit : Nat := 4300

/-- Why a text is not read as a whole number, or a number not written. -/
inductive Fault where
  /-- The numeral has more digits than are read. -/
  | tooLong (digits : Nat)
  /-- The number has more digits than are written. -/
  | tooLarge
  /-- The text is no numeral to the base. -/
  | notNumeral (base : Nat) (text : String)
  deriving DecidableEq, Repr

/-- The wording of a fault. Of a text that is no numeral the start is shown. -/
def Fault.message : Fault → String
  | .tooLong digits =>
    "Exceeds the limit (4300 digits) for integer string conversion: value has " ++
      toString digits ++ " digits; use sys.set_int_max_str_digits() to increase the limit"
  | .tooLarge =>
    "Exceeds the limit (4300 digits) for integer string conversion; use " ++
      "sys.set_int_max_str_digits() to increase the limit"
  | .notNumeral base text =>
    "invalid literal for int() with base " ++ toString base ++ ": " ++
      String.ofList ((Quoted.ofString text).toList.take 200)

/-- The number that digits write to a base, with the value of the digits before them. -/
def ofDigits (base : Nat) (digits : List Nat) : Nat :=
  digits.foldl (fun value digit => value * base + digit) 0

/-- The whole number that a text of decimal digits writes. -/
def read (text : List Char) : Except Fault Nat :=
  let digits := text.map decimalValue?
  let leading := digits.takeWhile Option.isSome
  if digitLimit < leading.length then .error (.tooLong leading.length)
  else if leading.length = text.length && !text.isEmpty then
    .ok (ofDigits 10 (leading.filterMap id))
  else .error (.notNumeral 10 (String.ofList text))

/-! ## Numerals with a sign -/

/-- A blank that may stand around a numeral: any but the four separators of the ASCII controls. -/
def isMargin (c : Char) : Bool := isBlank c && !(decide (0x1C ≤ c.toNat) && decide (c.toNat < 0x20))

/-- A text without the blanks around it. -/
def withoutMargin (text : List Char) : List Char :=
  ((text.dropWhile isMargin).reverse.dropWhile isMargin).reverse

/-- The value of a digit: a decimal digit of any script, or a letter for ten and more. -/
def digitValue? (c : Char) : Option Nat :=
  if c.isLower then some (c.toNat - 87)
  else if c.isUpper then some (c.toNat - 55)
  else decimalValue? c

/-- The value of a digit to a base. -/
def digitBelow? (base : Nat) (c : Char) : Option Nat := (digitValue? c).filter (· < base)

/-- The sign at the start of a text, and what follows it. -/
def takeSign : List Char → Bool × List Char
  | '-' :: rest => (true, rest)
  | '+' :: rest => (false, rest)
  | text => (false, text)

/-- The letter that marks numerals to a base after a zero. -/
def markOf? : Nat → Option Char
  | 2 => some 'b'
  | 8 => some 'o'
  | 16 => some 'x'
  | _ => none

/-- A numeral without the mark of its base. -/
def withoutMark (base : Nat) : List Char → List Char
  | '0' :: c :: rest => if markOf? base = some c.toLower then rest else '0' :: c :: rest
  | text => text

/-- The whole number that a text writes to a base, with a sign, the mark of the base and blanks
around it if they are there. -/
def readSigned (base : Nat) (text : List Char) : Except Fault Int :=
  let (negative, unsigned) := takeSign (withoutMargin text)
  let digits := (withoutMark base unsigned).map (digitBelow? base)
  let leading := digits.takeWhile Option.isSome
  if base = 10 && decide (digitLimit < leading.length) then .error (.tooLong leading.length)
  else if leading.length = digits.length && !digits.isEmpty then
    let magnitude : Int := ofDigits base (leading.filterMap id)
    .ok (if negative then -magnitude else magnitude)
  else .error (.notNumeral base (String.ofList text))

/-- The decimal text of a whole number. -/
def write (value : Int) : Except Fault String :=
  if digitLimit < (toString value.natAbs).length then .error .tooLarge else .ok (toString value)

end Blueprint.Number
