import Blueprint.Yaml.Kind
import Blueprint.Yaml.Number

/-!
# The values of YAML nodes

A scalar has a value of its kind, or none if its text does not fit the kind. The keys of a map are
distinct; of two entries with one key the later value counts. Numbers and truth values are compared
as numbers, and collections are no keys.

Octets are written in 64 signs, four of them for three octets. Signs outside of the alphabet are
passed over, and the text ends with the padding that completes a group of four; a group that is
neither complete nor padded is refused.
-/

/-! ## Octets as text in 64 signs -/

namespace Blueprint.Text.Base64

/-- The value of a sign of the alphabet. -/
def valueOf? (c : Char) : Option Nat :=
  if c.isUpper then some (c.toNat - 65)
  else if c.isLower then some (c.toNat - 71)
  else if c.isDigit then some (c.toNat + 4)
  else if c = '+' then some 62
  else if c = '/' then some 63
  else none

/-- The octets that a text writes from a place in a group on, given the bits that are left over from
the sign before and the count of paddings since then. -/
def decodeFrom (place carry paddings : Nat) : List Char → Option (List UInt8)
  | [] => if place = 0 then some [] else none
  | '=' :: rest =>
    if place < 2 then decodeFrom place carry paddings rest
    else if 4 ≤ place + paddings + 1 then some []
    else decodeFrom place carry (paddings + 1) rest
  | c :: rest =>
    match valueOf? c with
    | none => decodeFrom place carry paddings rest
    | some value =>
      match place with
      | 0 => decodeFrom 1 value 0 rest
      | 1 =>
        (decodeFrom 2 (value % 16) 0 rest).map (UInt8.ofNat (carry * 4 + value / 16) :: ·)
      | 2 =>
        (decodeFrom 3 (value % 4) 0 rest).map (UInt8.ofNat (carry * 16 + value / 4) :: ·)
      | _ => (decodeFrom 0 0 0 rest).map (UInt8.ofNat (carry * 64 + value) :: ·)

/-- The octets that a text writes. -/
def decode? (text : List Char) : Option (List UInt8) := decodeFrom 0 0 0 text

end Blueprint.Text.Base64

namespace Blueprint.Yaml

open Blueprint.Number (Binary64 Signed)

/-- The value of a node. -/
inductive Value where
  /-- Nothing. -/
  | null
  /-- A truth value. -/
  | bool (holds : Bool)
  /-- A whole number. -/
  | integer (value : Int)
  /-- A number with a fraction. -/
  | float (negative : Bool) (magnitude : Binary64)
  /-- What is no number among the numbers. It is written with a sign of its own, or it comes from
  the node with a number. -/
  | notANumber (origin : Option Nat)
  /-- A date or time. -/
  | moment (moment : Moment)
  /-- Octets. -/
  | octets (bytes : List UInt8)
  /-- A text. -/
  | text (text : String)
  /-- A collection of a kind. -/
  | collection (kind : Kind)
  deriving DecidableEq, Repr, Inhabited

/-! ## Scalars -/

/-- The words for truth values in small letters. -/
def boolOf? : String → Option Bool
  | "yes" | "true" | "on" => some true
  | "no" | "false" | "off" => some false
  | _ => none

/-- The truth value that a text writes. -/
def readBool (written : String) : Except Fault Value :=
  let word := Text.lower written
  match boolOf? word with
  | some holds => .ok (.bool holds)
  | none => .error (.notBool word)

/-- The date or time that a text writes. -/
def readMoment (written : String) : Except Fault Value :=
  match Moment.ofText? (Kind.withoutLineEnd written.toList) with
  | none => .error .notMoment
  | some date =>
    match date.fault? with
    | some fault => .error (.moment fault)
    | none => .ok (.moment date)

/-- The octets that a text writes. -/
def readOctets (written : String) : Except Fault Value :=
  let text := written.toList
  if text.all fun c => decide (c.toNat < 128) then
    match Text.Base64.decode? text with
    | some bytes => .ok (.octets bytes)
    | none => .error .malformed
  else .error .malformed

/-- The value of a scalar of a kind, given the number of its node. -/
def scalarValue (kind : Kind) (origin : Nat) (written : String) : Except Fault Value :=
  match kind with
  | .null => .ok .null
  | .bool => readBool written
  | .integer => return .integer (← readInteger written)
  | .float => do
    match ← readFloat written with
    | some (.number negative magnitude) => return .float negative magnitude
    | some .undefined => return .notANumber (some origin)
    | none => return .notANumber none
  | .octets => readOctets written
  | .moment => readMoment written
  | .text => .ok (.text written)
  | _ => .error .malformed

/-! ## Keys -/

/-- A value as a number, over a natural one. -/
def Value.fraction? : Value → Option (Int × Nat)
  | .bool holds => some (if holds then 1 else 0, 1)
  | .integer value => some (value, 1)
  | .float negative magnitude => (Signed.number negative magnitude).fraction?
  | _ => none

/-- Whether two values are one key. -/
def Value.sameKey (first second : Value) : Bool :=
  match first.fraction?, second.fraction? with
  | some (a, b), some (c, d) => a * d == c * b
  | none, none =>
    match first, second with
    | .moment a, .moment b => a.same b
    | _, _ => first == second
  | _, _ => false

/-- Whether a value can be a key. -/
def Value.isKey : Value → Bool
  | .collection _ => false
  | _ => true

/-- The entries of a map with an entry more: its value is written in place of the old value of its
key, or at the end. -/
def insertEntry (key value : Value) : List (Value × Value) → List (Value × Value)
  | [] => [(key, value)]
  | entry :: rest =>
    if entry.1.sameKey key then (entry.1, value) :: rest else entry :: insertEntry key value rest

end Blueprint.Yaml
