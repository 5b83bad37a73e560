import Blueprint.Json.Basic
import Blueprint.Number.Signed
import Blueprint.OrderedMap

/-!
# Reading records from JSON

A record is read field by field, and everything that is wrong with it is listed, each fault with its
place: the names of members and the numbers of items that lead to it. Members that no field asks for
are passed over. Words and the numbers zero and one count as truth values.
-/

namespace Blueprint

/-- A step to a part of a value. -/
inductive Step where
  /-- To the member with a name, or into a record of the named sort. -/
  | name (name : String)
  /-- To an item of a list. -/
  | item (number : Nat)
  deriving DecidableEq, Repr

/-- What can be wrong with a part of a value. -/
inductive Misfit where
  /-- A field is missing. -/
  | missing
  /-- A text is wanted. -/
  | notText
  /-- A list is wanted. -/
  | notList
  /-- A map is wanted. -/
  | notMap
  /-- A truth value is wanted. -/
  | notBool
  /-- A word or number that is a truth value is wanted. -/
  | noBoolWord
  /-- A whole number is wanted. -/
  | notInteger
  /-- A record is wanted. -/
  | notRecord
  /-- A record that says what it is is wanted. -/
  | notTagged
  /-- A record does not say what it is. -/
  | withoutTag
  /-- A record says that it is something unknown. -/
  | unknownTag
  /-- One of some words is wanted. -/
  | unknownWord
  deriving DecidableEq, Repr

namespace Misfit

/-- The name of a misfit. -/
def label : Misfit → String
  | .missing => "missing"
  | .notText => "string_type"
  | .notList => "list_type"
  | .notMap => "dict_type"
  | .notBool => "bool_type"
  | .noBoolWord => "bool_parsing"
  | .notInteger => "int_type"
  | .notRecord => "model_type"
  | .notTagged => "model_attributes_type"
  | .withoutTag => "union_tag_not_found"
  | .unknownTag => "union_tag_invalid"
  | .unknownWord => "enum"

end Misfit

/-- A misfit with its place. -/
structure JsonFault where
  /-- What is wrong. -/
  misfit : Misfit
  /-- Where it is. -/
  place : List Step
  deriving DecidableEq, Repr

/-- A value that was read, or all that is wrong with it. -/
inductive Checked (α : Type) where
  /-- The value. -/
  | valid (value : α)
  /-- What is wrong. -/
  | invalid (faults : List JsonFault)
  deriving Repr

namespace Checked

variable {α β : Type}

/-- A single misfit, here. -/
def misfit (what : Misfit) : Checked α := .invalid [⟨what, []⟩]

/-- Changes the value. -/
def map (f : α → β) : Checked α → Checked β
  | .valid value => .valid (f value)
  | .invalid faults => .invalid faults

/-- Applies a function that was read; the faults of both parts are listed. -/
def apply : Checked (α → β) → Checked α → Checked β
  | .valid f, .valid value => .valid (f value)
  | .valid _, .invalid faults => .invalid faults
  | .invalid faults, .valid _ => .invalid faults
  | .invalid faults, .invalid more => .invalid (faults ++ more)

instance : Functor Checked := ⟨map, fun value => map fun _ => value⟩

instance : Applicative Checked where
  pure := .valid
  seq f value := apply f (value ())

/-- The same as part of a larger value. -/
def under (step : Step) : Checked α → Checked α
  | .valid value => .valid value
  | .invalid faults =>
    .invalid (faults.map fun fault => { fault with place := step :: fault.place })

/-- The value, if all is well. -/
def value? : Checked α → Option α
  | .valid value => some value
  | .invalid _ => none

/-- Reads the items of a list, counted from the given number on. -/
def items (read : Json → Checked α) : Nat → List Json → Checked (List α)
  | _, [] => .valid []
  | number, item :: rest =>
    apply (map List.cons ((read item).under (.item number))) (items read (number + 1) rest)

/-- Reads the values of a map. -/
def entries (read : Json → Checked α) : List (String × Json) → Checked (List (String × α))
  | [] => .valid []
  | (key, value) :: rest =>
    apply (map (fun value rest => (key, value) :: rest) ((read value).under (.name key)))
      (entries read rest)

end Checked

namespace Json

variable {α : Type}

/-- Reads a text. -/
def readString : Json → Checked String
  | .string text => .valid text
  | _ => .misfit .notText

/-- The words for a truth value that holds. -/
def trueWords : List String := ["1", "t", "y", "on", "yes", "true"]

/-- The words for a truth value that does not hold. -/
def falseWords : List String := ["0", "f", "n", "no", "off", "false"]

/-- Reads a truth value from a word, in small or capital letters. -/
def boolOfWord (text : String) : Checked Bool :=
  let word := String.ofList (text.toList.map Char.toLower)
  if trueWords.contains word then .valid true
  else if falseWords.contains word then .valid false
  else .misfit .noBoolWord

/-- Whole numbers from here on are no truth values whatever their value, nor are those below its
negative. -/
def wholeLimit : Int := Nat.pow 2 63

/-- Reads a truth value from a whole number. -/
def boolOfInt (value : Int) : Checked Bool :=
  if value = 0 then .valid false
  else if value = 1 then .valid true
  else .misfit .noBoolWord

/-- Reads a truth value from a number that is written with a fraction or an exponent; its value has
to be whole. -/
def boolOfDecimal (text : String) : Checked Bool :=
  match (Number.Signed.ofText? text.toList).bind Number.Signed.fraction? with
  | some (numerator, denominator) =>
    let value := numerator / denominator
    if numerator % denominator = 0 && -wholeLimit < value && value < wholeLimit then
      boolOfInt value
    else .misfit .notBool
  | none => .misfit .notBool

/-- Reads a truth value. -/
def readBool : Json → Checked Bool
  | .bool holds => .valid holds
  | .string text => boolOfWord text
  | .number value =>
    if -wholeLimit ≤ value && value < wholeLimit then boolOfInt value else .misfit .notBool
  | .decimal text => boolOfDecimal text
  | _ => .misfit .notBool

/-- Reads a whole number. -/
def readInt : Json → Checked Int
  | .number value => .valid value
  | _ => .misfit .notInteger

/-- Reads a list. -/
def readList (read : Json → Checked α) : Json → Checked (List α)
  | .array items => Checked.items read 0 items
  | _ => .misfit .notList

/-- Reads a map. -/
def readMap (read : Json → Checked α) : Json → Checked (OrderedMap String α)
  | .object members =>
    (Checked.entries read (OrderedMap.ofList members).entries).map OrderedMap.ofList
  | _ => .misfit .notMap

/-- Reads a value that may be `null`. -/
def readNullable (read : Json → Checked α) : Json → Checked (Option α)
  | .null => .valid none
  | value => (read value).map some

/-- Reads a field that has to be there. -/
def required (record : Json) (name : String) (read : Json → Checked α) : Checked α :=
  match record.member? name with
  | some value => (read value).under (.name name)
  | none => (Checked.misfit .missing).under (.name name)

/-- Reads a field that need not be there. -/
def optional (record : Json) (name : String) (read : Json → Checked α) (absent : α) :
    Checked α :=
  match record.member? name with
  | some value => (read value).under (.name name)
  | none => .valid absent

/-- Reads a record with the given reader of its fields. -/
def readRecord (fields : Json → Checked α) : Json → Checked α
  | .object members => fields (.object members)
  | _ => .misfit .notRecord

end Json

end Blueprint
