import Blueprint.Json.Basic
import Blueprint.Text.CodePoint

/-!
# Writing JSON

A value is written without blanks, or with one member or item on a line, each level two blanks
further in. Text is escaped where JSON demands it; in a channel for ASCII alone all other characters
are escaped too, in one or two units of sixteen bits.
-/

namespace Blueprint.Json

open Blueprint.Text

/-- A unit of sixteen bits as an escape. -/
def unitEscape (unit : Nat) : List Char := '\\' :: 'u' :: CodePoint.hexDigits 4 unit

/-- A character in a text: quotes, backslashes and controls are escaped. -/
def escapedChar (c : Char) : List Char :=
  if c = '"' then ['\\', '"']
  else if c = '\\' then ['\\', '\\']
  else if c = '\n' then ['\\', 'n']
  else if c = '\r' then ['\\', 'r']
  else if c = '\t' then ['\\', 't']
  else if c = '\x08' then ['\\', 'b']
  else if c = '\x0c' then ['\\', 'f']
  else if c.toNat < 32 then unitEscape c.toNat
  else [c]

/-- A character in a channel for ASCII alone. -/
def asciiChar (c : Char) : List Char :=
  if c.toNat < 128 then escapedChar c
  else if c.toNat < 0x10000 then unitEscape c.toNat
  else
    let beyond := c.toNat - 0x10000
    unitEscape (0xD800 + beyond / 0x400) ++ unitEscape (0xDC00 + beyond % 0x400)

/-- A text between quotes. -/
def quoted (escape : Char → List Char) (text : String) : List Char :=
  '"' :: (text.toList.flatMap escape ++ ['"'])

/-- The digits of a whole number, with its sign. -/
def integerText (value : Int) : List Char :=
  if value < 0 then '-' :: Nat.toDigits 10 value.natAbs else Nat.toDigits 10 value.natAbs

mutual

/-- A value without blanks. -/
def compact (escape : Char → List Char) : Json → List Char
  | .null => ['n', 'u', 'l', 'l']
  | .bool true => ['t', 'r', 'u', 'e']
  | .bool false => ['f', 'a', 'l', 's', 'e']
  | .number value => integerText value
  | .decimal text => text.toList
  | .string text => quoted escape text
  | .array [] => ['[', ']']
  | .array (item :: items) => '[' :: (compact escape item ++ compactItems escape items)
  | .object [] => ['{', '}']
  | .object ((name, value) :: members) =>
    '{' :: (quoted escape name ++ ':' :: (compact escape value ++ compactMembers escape members))

/-- The further items of a list, up to its end. -/
def compactItems (escape : Char → List Char) : List Json → List Char
  | [] => [']']
  | item :: items => ',' :: (compact escape item ++ compactItems escape items)

/-- The further members of an object, up to its end. -/
def compactMembers (escape : Char → List Char) : List (String × Json) → List Char
  | [] => ['}']
  | (name, value) :: members =>
    ',' :: (quoted escape name ++ ':' ::
      (compact escape value ++ compactMembers escape members))

end

/-- The start of a line at a level. -/
def newLine (level : Nat) : List Char := '\n' :: List.replicate (2 * level) ' '

mutual

/-- A value on several lines, the first of which starts at the given level. -/
def indented (escape : Char → List Char) (level : Nat) : Json → List Char
  | .null => ['n', 'u', 'l', 'l']
  | .bool true => ['t', 'r', 'u', 'e']
  | .bool false => ['f', 'a', 'l', 's', 'e']
  | .number value => integerText value
  | .decimal text => text.toList
  | .string text => quoted escape text
  | .array [] => ['[', ']']
  | .array (item :: items) =>
    '[' :: (newLine (level + 1) ++ indented escape (level + 1) item ++
      indentedItems escape level items)
  | .object [] => ['{', '}']
  | .object ((name, value) :: members) =>
    '{' :: (newLine (level + 1) ++ quoted escape name ++ ':' :: ' ' ::
      (indented escape (level + 1) value ++ indentedMembers escape level members))

/-- The further items of a list that starts at the given level, up to its end. -/
def indentedItems (escape : Char → List Char) (level : Nat) : List Json → List Char
  | [] => newLine level ++ [']']
  | item :: items =>
    ',' :: (newLine (level + 1) ++ indented escape (level + 1) item ++
      indentedItems escape level items)

/-- The further members of an object that starts at the given level, up to its end. -/
def indentedMembers (escape : Char → List Char) (level : Nat) :
    List (String × Json) → List Char
  | [] => newLine level ++ ['}']
  | (name, value) :: members =>
    ',' :: (newLine (level + 1) ++ quoted escape name ++ ':' :: ' ' ::
      (indented escape (level + 1) value ++ indentedMembers escape level members))

end

/-- The text of a value on one line. -/
def render (value : Json) : String := String.ofList (compact escapedChar value)

/-- The text of a value on one line, in ASCII alone. -/
def renderAscii (value : Json) : String := String.ofList (compact asciiChar value)

/-- The text of a value on several lines. -/
def renderIndented (value : Json) : String := String.ofList (indented escapedChar 0 value)

end Blueprint.Json
