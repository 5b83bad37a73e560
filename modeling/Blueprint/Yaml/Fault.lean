import Blueprint.Number.Numeral
import Blueprint.Yaml.Moment

/-!
# Why a YAML text has no value

Most texts without a value are malformed, whatever the reason. The other faults concern one scalar
each and say what is wrong with it.
-/

namespace Blueprint.Yaml

/-- Why a text has no value. -/
inductive Fault where
  /-- The text is no document, or a document says what has no meaning. -/
  | malformed
  /-- An escape names a code point beyond the last one. -/
  | codePoint (code : Nat)
  /-- A whole number cannot be read. -/
  | number (fault : Number.Fault)
  /-- A number is wanted where nothing is written. -/
  | emptyNumber
  /-- A text is no number with a fraction. -/
  | notFloat (text : String)
  /-- A number has too many parts to the base sixty. -/
  | tooManyParts
  /-- A word is no truth value. -/
  | notBool (word : String)
  /-- A date or time does not exist. -/
  | moment (fault : MomentFault)
  /-- A text has not the form of a date or time. -/
  | notMoment
  /-- A map stands for a date or time. -/
  | momentOfMap
  deriving DecidableEq, Repr

/-- The numbers of code points are below this. -/
def codePointLimit : Nat := 0x110000

/-- Numbers of code points from here on are not even looked at. -/
def escapeLimit : Nat := 0x80000000

/-- The wording of a fault. -/
def Fault.message : Fault → String
  | .malformed => "malformed"
  | .codePoint code =>
    if code < escapeLimit then "chr() arg not in range(0x110000)"
    else "Python int too large to convert to C int"
  | .number fault => fault.message
  | .emptyNumber => "string index out of range"
  | .notFloat text => "could not convert string to float: " ++ Text.Quoted.ofString text
  | .tooManyParts => "int too large to convert to float"
  | .notBool word => Text.Quoted.ofString word
  | .moment fault => fault.message
  | .notMoment => "'NoneType' object has no attribute 'groupdict'"
  | .momentOfMap => "expected string or bytes-like object, got 'list'"

end Blueprint.Yaml
