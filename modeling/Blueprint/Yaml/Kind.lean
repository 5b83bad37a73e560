import Blueprint.Yaml.Moment
import Blueprint.Text.Blank

/-!
# Kinds of YAML nodes

A tag says what kind a node is of. A scalar without quotes and without a tag shows it by its form:
it is a truth value, a number, a date or nothing at all if it looks like one, and a text
otherwise. One line end after the form does not count.
-/

namespace Blueprint.Yaml

/-- What a node is. -/
inductive Kind where
  | null | bool | integer | float | octets | moment | text
  | sequence | mapping
  /-- A map with its order. -/
  | orderedMap
  /-- A list of pairs. -/
  | pairs
  /-- A set, which is the keys of a map. -/
  | set
  /-- The key of the maps that a map takes entries from. -/
  | merge
  /-- The key of the value that stands for a map. -/
  | value
  /-- Anything else. -/
  | unknown
  deriving DecidableEq, Repr, Inhabited

namespace Kind

/-- Where the common tags start. -/
def commonTag (name : String) : String := "tag:yaml.org,2002:" ++ name

/-- The kinds with a common tag. -/
def named : List (String × Kind) := [
  ("null", .null), ("bool", .bool), ("int", .integer), ("float", .float), ("binary", .octets),
  ("timestamp", .moment), ("str", .text), ("seq", .sequence), ("map", .mapping),
  ("omap", .orderedMap), ("pairs", .pairs), ("set", .set), ("merge", .merge), ("value", .value)]

/-- The kind that a tag names. -/
def ofTag (tag : String) : Kind :=
  ((named.find? fun entry => commonTag entry.1 == tag).map Prod.snd).getD .unknown

/-! ## Forms -/

/-- The words for truth values. -/
def boolWords : List String := [
  "yes", "Yes", "YES", "no", "No", "NO", "true", "True", "TRUE", "false", "False", "FALSE",
  "on", "On", "ON", "off", "Off", "OFF"]

/-- The words for nothing. -/
def nullWords : List String := ["", "~", "null", "Null", "NULL"]

/-- A text without the sign at its start. -/
def withoutSign : List Char → List Char
  | '-' :: rest => rest
  | '+' :: rest => rest
  | unsigned => unsigned

/-- A digit or an underscore. -/
def isDigitOrUnderscore (c : Char) : Bool := c.isDigit || c == '_'

/-- Whether a text starts with a digit. -/
def startsWithDigit (text : List Char) : Bool := (text.head?.map Char.isDigit).getD false

/-- Whether a text is a digit with further digits and underscores. -/
def isDigits (text : List Char) : Bool := startsWithDigit text && text.all isDigitOrUnderscore

/-- Whether a text is a part of a number to the base sixty: at most two digits below sixty. -/
def isSixtieth : List Char → Bool
  | [a] => a.isDigit
  | [a, b] => a.isDigit && b.isDigit && a < '6'
  | _ => false

/-- Whether a text is a number to the base sixty of at least two parts. -/
def isSixtieths (text : List Char) : Bool :=
  match Text.splitOn ':' text with
  | first :: part :: parts => isDigits first && (part :: parts).all isSixtieth
  | _ => false

/-- A digit for the base sixteen, or an underscore. -/
def isHexOrUnderscore (c : Char) : Bool :=
  isDigitOrUnderscore c || ('a' ≤ c && c ≤ 'f') || ('A' ≤ c && c ≤ 'F')

/-- Whether a text has the form of a whole number without a sign. -/
def isNatural (text : List Char) : Bool :=
  match text with
  | ['0'] => true
  | '0' :: 'b' :: digits =>
    !digits.isEmpty && digits.all fun c => c == '0' || c == '1' || c == '_'
  | '0' :: 'x' :: digits => !digits.isEmpty && digits.all isHexOrUnderscore
  | '0' :: digits => digits.all fun c => ('0' ≤ c && c ≤ '7') || c == '_'
  | digits => isDigits digits || isSixtieths digits

/-- Whether a text is empty or a power of ten with its sign. -/
def isPowerOfTen : List Char → Bool
  | [] => true
  | c :: sign :: digits =>
    (c == 'e' || c == 'E') && (sign == '+' || sign == '-') && !digits.isEmpty &&
      digits.all Char.isDigit
  | _ => false

/-- Whether a text has the form of a number with a point. The point comes first only without a
sign. -/
def isPointed (text : List Char) : Bool :=
  let unsigned := withoutSign text
  let whole := unsigned.takeWhile (· ≠ '.')
  match unsigned.drop whole.length with
  | '.' :: rest =>
    let places := rest.takeWhile isDigitOrUnderscore
    let tail := rest.drop places.length
    (isDigits whole && isPowerOfTen tail) ||
      (isSixtieths whole && tail.isEmpty) ||
      (text.head? == some '.' && startsWithDigit places && isPowerOfTen tail)
  | _ => false

/-- Whether a text has the form of a number with a fraction. -/
def isFloat (text : List Char) : Bool :=
  [".inf", ".Inf", ".INF"].contains (String.ofList (withoutSign text)) ||
    [".nan", ".NaN", ".NAN"].contains (String.ofList text) || isPointed text

/-- Whether a text has the form of a date or time. A date alone has two digits for the month and the
day. -/
def isMoment (text : List Char) : Bool :=
  match Moment.ofText? text with
  | some date => date.time.isSome || text.length == 10
  | none => false

/-- A text without a line end after it. -/
def withoutLineEnd (text : List Char) : List Char :=
  if text.getLast? == some '\n' then text.dropLast else text

/-- The kind that a scalar shows by its form. -/
def ofForm (written : String) : Kind :=
  let text := withoutLineEnd written.toList
  let word := String.ofList text
  if written = "\n" then .text
  else if boolWords.contains word then .bool
  else if isFloat text then .float
  else if isNatural (withoutSign text) then .integer
  else if word = "<<" then .merge
  else if nullWords.contains word then .null
  else if isMoment text then .moment
  else if word = "=" then .value
  else .text

end Kind

end Blueprint.Yaml
