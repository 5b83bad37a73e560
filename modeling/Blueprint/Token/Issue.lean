import Blueprint.Text.Quoted

/-!
# Problems in the text of tokens
-/

namespace Blueprint

open Blueprint.Text

/-- What can be wrong with the characters of a source. -/
inductive LexicalIssue where
  /-- No token starts with the character. -/
  | unexpectedCharacter (c : Char)
  /-- A block comment reaches the end of the source. -/
  | unterminatedComment
  /-- A string literal reaches the end of the source. -/
  | unterminatedString
  /-- A string literal between single delimiters reaches the end of its line. -/
  | lineEndInString
  /-- The character after the backslash has no meaning there. -/
  | unknownEscape (c : Char)
  /-- A numeric escape has too few characters before the end of the source. -/
  | incompleteEscape (marker : Char) (digits : List Char)
  /-- A numeric escape has characters that are no digits to the base sixteen. -/
  | invalidEscape (marker : Char) (digits : List Char)
  deriving DecidableEq, Repr

namespace LexicalIssue

/-- The wording of a problem. -/
def message : LexicalIssue → String
  | .unexpectedCharacter c => "Unexpected character: " ++ Quoted.ofChar c
  | .unterminatedComment => "Unterminated block comment"
  | .unterminatedString => "Unterminated string literal"
  | .lineEndInString => "Unterminated string literal: newline in string"
  | .unknownEscape c => "Unknown escape sequence: " ++ String.ofList ['\\', c]
  | .incompleteEscape marker digits =>
    "Incomplete escape sequence: " ++ String.ofList ('\\' :: marker :: digits)
  | .invalidEscape marker digits =>
    "Invalid escape sequence: " ++ String.ofList ('\\' :: marker :: digits)

/-- An unknown escape is kept as written, so it is only a warning. -/
def isWarning : LexicalIssue → Bool
  | .unknownEscape _ => true
  | _ => false

end LexicalIssue

/-- A problem in a piece of source text, with the count of characters before it. -/
structure Remark where
  /-- The count of characters of the piece before the problem. -/
  distance : Nat
  /-- What is wrong. -/
  issue : LexicalIssue
  deriving DecidableEq, Repr

end Blueprint
