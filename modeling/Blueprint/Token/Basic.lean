import Blueprint.Number.Shortest
import Blueprint.Source.Position
import Blueprint.Text.Quoted
import Blueprint.Token.Kind

/-!
# Tokens

A token has a kind, the text it is written with, the place where it starts, and for a literal the
value that its text stands for.
-/

namespace Blueprint

open Blueprint.Text

/-- The value of a literal. -/
inductive Value where
  /-- The token is no literal. -/
  | absent
  /-- The decoded text of a string literal. -/
  | text (points : Text)
  /-- A whole number. -/
  | integer (number : Nat)
  /-- A number with a decimal point. -/
  | decimal (number : Number.Binary64)
  /-- A truth value. -/
  | boolean (holds : Bool)
  deriving DecidableEq, Repr

/-- A token of a source text. -/
structure Token where
  /-- What the token is. -/
  kind : Kind
  /-- The text it is written with. -/
  lexeme : String
  /-- Where it starts. -/
  position : Position
  /-- The value of a literal. -/
  value : Value := .absent
  deriving DecidableEq, Repr

namespace Token

/-- The token at the end of the input. -/
def finish (position : Position) : Token := ⟨.endOfInput, "", position, .absent⟩

instance : Inhabited Token := ⟨finish Position.start⟩

/-- The line on which a token starts. -/
def line (token : Token) : Int := token.position.line

/-- What a token contributes to a value: the decoded text of a string literal, and its own text
otherwise. -/
def text (token : Token) : Text :=
  match token.kind, token.value with
  | .string, .text points => points
  | _, _ => .ofString token.lexeme

/-- The value as it is listed after the text of a token. -/
def valueListing : Value → Option String
  | .absent => none
  | .text points => some (Quoted.ofPoints points)
  | .integer number => some (toString number)
  | .decimal number => some number.text
  | .boolean holds => some (if holds then "True" else "False")

/-- The row that lists a token. -/
def listing (token : Token) : String :=
  let head := token.kind.label ++ " " ++ Quoted.ofString token.lexeme
  let value := match valueListing token.value with
    | some shown => " (" ++ shown ++ ")"
    | none => ""
  head ++ value ++ " at " ++ token.position.describe

/-- The offset of the character after a token. -/
def endOffset (token : Token) : Int := token.position.offset + token.lexeme.length

end Token

end Blueprint
