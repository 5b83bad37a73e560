import Blueprint.Number.Signed
import Blueprint.Text.Case
import Blueprint.Yaml.Fault

/-!
# Numbers of YAML scalars

Underscores between digits do not count, and a number may have parts to the base sixty. The kind of
a scalar may also come from its tag, so any text can be asked for its number.
-/

namespace Blueprint.Yaml

open Blueprint.Number (Signed)

/-- A text without its underscores. -/
def withoutUnderscores (text : List Char) : List Char := text.filter (· ≠ '_')

/-- A whole number to a base. -/
def readBase (base : Nat) (text : List Char) : Except Fault Int :=
  (Number.readSigned base text).mapError .number

/-- The whole number that a text without a sign writes. -/
def readUnsigned (text : List Char) : Except Fault Int :=
  match text with
  | [] => .error .emptyNumber
  | ['0'] => .ok 0
  | '0' :: 'b' :: digits => readBase 2 digits
  | '0' :: 'x' :: digits => readBase 16 digits
  | '0' :: _ => readBase 8 text
  | _ => do
    let parts ← (Text.splitOn ':' text).mapM (readBase 10)
    return parts.foldl (fun value part => value * 60 + part) 0

/-- The whole number that a text writes. -/
def readInteger (written : String) : Except Fault Int := do
  let (negative, unsigned) := Number.takeSign (withoutUnderscores written.toList)
  let value ← readUnsigned unsigned
  return if negative then -value else value

/-- A number with a fraction. -/
def readPart (text : List Char) : Except Fault Signed :=
  match Signed.ofText? text with
  | some number => .ok number
  | none => .error (.notFloat (String.ofList text))

/-- The number of parts to the base sixty, the last of which comes first: each product and each sum
is rounded. -/
def sumParts (base : Nat) (sum : Signed) : List Signed → Except Fault Signed
  | [] => .ok sum
  | part :: parts =>
    match Signed.ofInt? base with
    | some factor => sumParts (base * 60) (sum.add (part.mul factor)) parts
    | none => .error .tooManyParts

/-- The number with a fraction that a text writes. There is nothing to read for the sign that stands
for what is no number. -/
def readFloat (written : String) : Except Fault (Option Signed) := do
  let text := (Text.lower (String.ofList (withoutUnderscores written.toList))).toList
  let (negative, unsigned) := Number.takeSign text
  let signed := fun number : Signed => if negative then number.neg else number
  if text.isEmpty then .error .emptyNumber
  else if unsigned = ".inf".toList then return some (signed (.number false .infinite))
  else if unsigned = ".nan".toList then return none
  else
    match Text.splitOn ':' unsigned with
    | [_] => return some (signed (← readPart unsigned))
    | parts => do
      let numbers ← parts.mapM readPart
      return some (signed (← sumParts 1 .zero numbers.reverse))

end Blueprint.Yaml
