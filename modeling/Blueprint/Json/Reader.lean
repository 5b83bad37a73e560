import Blueprint.Json.Basic
import Blueprint.Number.Numeral
import Blueprint.Token.Literal

/-!
# Reading JSON

A value is read together with the text after it. Whatever is no JSON is refused, an escape that
writes half of a character too.
-/

namespace Blueprint.Json

/-- The blanks between the parts of a value. -/
def isGap (c : Char) : Bool := c == ' ' || c == '\t' || c == '\n' || c == '\r'

/-- The text from its first character on that is no blank. -/
def skipGaps (text : List Char) : List Char := text.dropWhile isGap

/-- The character that a short escape writes. -/
def shortEscape? : Char → Option Char
  | '"' => some '"'
  | '\\' => some '\\'
  | '/' => some '/'
  | 'b' => some '\x08'
  | 'f' => some '\x0c'
  | 'n' => some '\n'
  | 'r' => some '\r'
  | 't' => some '\t'
  | _ => none

/-- The character of two units of sixteen bits that belong together. -/
def pairedChar? (high low : Nat) : Option Char :=
  if 0xD800 ≤ high ∧ high < 0xDC00 ∧ 0xDC00 ≤ low ∧ low < 0xE000 then
    some (Char.ofNat (0x10000 + (high - 0xD800) * 0x400 + (low - 0xDC00)))
  else none

/-- A text after its opening quote, and what follows its closing quote. -/
def readText : List Char → Option (List Char × List Char)
  | [] => none
  | '"' :: rest => some ([], rest)
  | '\\' :: 'u' :: a :: b :: c :: d :: rest =>
    match Literal.hexNumber? [a, b, c, d] with
    | none => none
    | some unit =>
      if 0xD800 ≤ unit ∧ unit < 0xE000 then
        match rest with
        | '\\' :: 'u' :: e :: f :: g :: h :: more =>
          match Literal.hexNumber? [e, f, g, h] with
          | none => none
          | some low => do
            let first ← pairedChar? unit low
            let (text, after) ← readText more
            return (first :: text, after)
        | _ => none
      else do
        let (text, after) ← readText rest
        return (Char.ofNat unit :: text, after)
  | '\\' :: c :: rest => do
    let first ← shortEscape? c
    let (text, after) ← readText rest
    return (first :: text, after)
  | c :: rest =>
    if c.toNat < 32 then none
    else do
      let (text, after) ← readText rest
      return (c :: text, after)

/-- The digits at the start of a text, and what follows them. -/
def readDigits (text : List Char) : List Char × List Char :=
  (text.takeWhile Char.isDigit, text.dropWhile Char.isDigit)

/-- Whether the digits before the point of a number are in order: no zero before another digit. -/
def wholeDigitsFit : List Char → Bool
  | [] => false
  | ['0'] => true
  | '0' :: _ => false
  | _ => true

/-- The fraction of a number, if it has one, and what follows. -/
def readFraction : List Char → Option (List Char × List Char)
  | '.' :: rest =>
    let (digits, after) := readDigits rest
    if digits.isEmpty then none else some ('.' :: digits, after)
  | rest => some ([], rest)

/-- The exponent of a number, if it has one, and what follows. -/
def readExponent : List Char → Option (List Char × List Char)
  | c :: rest =>
    if c = 'e' || c = 'E' then
      let (sign, digits) := match rest with
        | '+' :: more => (['+'], more)
        | '-' :: more => (['-'], more)
        | more => ([], more)
      let (digits, after) := readDigits digits
      if digits.isEmpty then none else some (c :: sign ++ digits, after)
    else some ([], c :: rest)
  | [] => some ([], [])

/-- A number and what follows it. -/
def readNumber (text : List Char) : Option (Json × List Char) := do
  let (negative, unsigned) := match text with
    | '-' :: rest => (true, rest)
    | rest => (false, rest)
  let (whole, rest) := readDigits unsigned
  guard (wholeDigitsFit whole)
  let (fraction, rest) ← readFraction rest
  let (exponent, rest) ← readExponent rest
  if fraction.isEmpty && exponent.isEmpty then
    let magnitude := Number.ofDigits 10 (whole.map fun c => c.toNat - 48)
    return (.number (if negative then -(magnitude : Int) else magnitude), rest)
  else
    let sign := if negative then ['-'] else []
    return (.decimal (String.ofList (sign ++ whole ++ fraction ++ exponent)), rest)

mutual

/-- A value and what follows it, read in at most the given count of steps. -/
def readValue : Nat → List Char → Option (Json × List Char)
  | 0, _ => none
  | steps + 1, text =>
    match skipGaps text with
    | '{' :: rest =>
      match skipGaps rest with
      | '}' :: after => some (.object [], after)
      | more => do
        let (members, after) ← readMembers steps more
        return (.object members, after)
    | '[' :: rest =>
      match skipGaps rest with
      | ']' :: after => some (.array [], after)
      | more => do
        let (items, after) ← readItems steps more
        return (.array items, after)
    | '"' :: rest => do
      let (text, after) ← readText rest
      return (.string (String.ofList text), after)
    | 'n' :: 'u' :: 'l' :: 'l' :: rest => some (.null, rest)
    | 't' :: 'r' :: 'u' :: 'e' :: rest => some (.bool true, rest)
    | 'f' :: 'a' :: 'l' :: 's' :: 'e' :: rest => some (.bool false, rest)
    | other => readNumber other

/-- The items of a list up to its end; there is at least one. -/
def readItems : Nat → List Char → Option (List Json × List Char)
  | 0, _ => none
  | steps + 1, text => do
    let (item, rest) ← readValue steps text
    match skipGaps rest with
    | ']' :: after => return ([item], after)
    | ',' :: more =>
      let (items, after) ← readItems steps more
      return (item :: items, after)
    | _ => none

/-- The members of an object up to its end; there is at least one. -/
def readMembers : Nat → List Char → Option (List (String × Json) × List Char)
  | 0, _ => none
  | steps + 1, text =>
    match skipGaps text with
    | '"' :: rest => do
      let (name, afterName) ← readText rest
      match skipGaps afterName with
      | ':' :: beforeValue =>
        let (value, rest) ← readValue steps beforeValue
        match skipGaps rest with
        | '}' :: after => return ([(String.ofList name, value)], after)
        | ',' :: more =>
          let (members, after) ← readMembers steps more
          return ((String.ofList name, value) :: members, after)
        | _ => none
      | _ => none
    | _ => none

end

/-- The value that a text writes. -/
def parse? (text : String) : Option Json :=
  match readValue (2 * text.length + 2) text.toList with
  | some (value, rest) => if (skipGaps rest).isEmpty then some value else none
  | none => none

end Blueprint.Json
