/-!
# JSON values

Objects keep their members in the order in which they are written. Whole numbers are exact; a number
with a fraction or an exponent is kept as it is written.
-/

namespace Blueprint

/-- A JSON value. -/
inductive Json where
  /-- The value `null`. -/
  | null
  /-- A truth value. -/
  | bool (holds : Bool)
  /-- A whole number. -/
  | number (value : Int)
  /-- Any other number, by its text. -/
  | decimal (text : String)
  /-- A text. -/
  | string (text : String)
  /-- A list of values. -/
  | array (items : List Json)
  /-- Named values, in order. -/
  | object (members : List (String × Json))
  deriving Repr, Inhabited

namespace Json

/-- The value of a member of an object; of two members with one name the later one counts. -/
def member? (name : String) : Json → Option Json
  | .object members => (members.reverse.find? fun entry => entry.1 == name).map Prod.snd
  | _ => none

/-- The text of a string value. -/
def text? : Json → Option String
  | .string text => some text
  | _ => none

/-- The items of a list. -/
def items? : Json → Option (List Json)
  | .array items => some items
  | _ => none

/-- The value of a whole number. -/
def int? : Json → Option Int
  | .number value => some value
  | _ => none

/-- A truth value. -/
def bool? : Json → Option Bool
  | .bool holds => some holds
  | _ => none

/-- Whether the value is `null`. -/
def isNull : Json → Bool
  | .null => true
  | _ => false

/-- A text, or `null` for none. -/
def ofText? : Option String → Json
  | some text => .string text
  | none => .null

/-- A whole number, or `null` for none. -/
def ofInt? : Option Int → Json
  | some value => .number value
  | none => .null

/-- A list of texts. -/
def ofTexts (texts : List String) : Json := .array (texts.map .string)

end Json

end Blueprint
