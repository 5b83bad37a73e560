/-!
# Places in a YAML text

Lines and columns decide the structure of a YAML text. A byte order mark takes no column.
-/

namespace Blueprint.Yaml

/-- A place in a text, with the text from there on. -/
structure Cursor where
  /-- The text that is not read yet. -/
  rest : List Char
  /-- The count of characters before. -/
  index : Nat := 0
  /-- The count of lines before. -/
  line : Nat := 0
  /-- The count of columns before on the line. -/
  column : Nat := 0
  deriving Repr

/-- A character that ends a line. -/
def isBreak (c : Char) : Bool :=
  c == '\n' || c == '\r' || c == '\x85' || c == '\u2028' || c == '\u2029'

/-- A blank within a line. -/
def isSpace (c : Char) : Bool := c == ' ' || c == '\t'

/-- Whether a text starts with a blank, a line end or nothing at all. -/
def atGap : List Char → Bool
  | [] => true
  | c :: _ => isSpace c || isBreak c

/-- Whether a text starts with a line end. -/
def atBreak : List Char → Bool
  | [] => false
  | c :: _ => isBreak c

/-- Whether a text starts with a mark of three characters for the start or the end of a document. -/
def atDocumentMark : List Char → Bool
  | '-' :: '-' :: '-' :: rest => atGap rest
  | '.' :: '.' :: '.' :: rest => atGap rest
  | _ => false

namespace Cursor

/-- The place after the next character. -/
def next (cursor : Cursor) : Cursor :=
  match cursor.rest with
  | [] => cursor
  | c :: rest =>
    if isBreak c && !(c == '\r' && rest.head? == some '\n') then
      { rest, index := cursor.index + 1, line := cursor.line + 1, column := 0 }
    else
      { rest, index := cursor.index + 1, line := cursor.line
        column := if c == '\uFEFF' then cursor.column else cursor.column + 1 }

/-- The place after several characters. -/
def skip (cursor : Cursor) : Nat → Cursor
  | 0 => cursor
  | count + 1 => cursor.next.skip count

/-- The characters from a place on that satisfy a condition. -/
def run (cursor : Cursor) (wanted : Char → Bool) : List Char := cursor.rest.takeWhile wanted

/-- The place after the characters that satisfy a condition. -/
def skipRun (cursor : Cursor) (wanted : Char → Bool) : Cursor :=
  cursor.skip (cursor.run wanted).length

/-- The line end at a place as it counts in a value, and the place after it. The line ends of
systems all count as U+000A. -/
def lineEnd (cursor : Cursor) : List Char × Cursor :=
  match cursor.rest with
  | '\r' :: '\n' :: _ => (['\n'], cursor.skip 2)
  | c :: _ =>
    if c == '\u2028' || c == '\u2029' then ([c], cursor.next)
    else if isBreak c then (['\n'], cursor.next)
    else ([], cursor)
  | [] => ([], cursor)

end Cursor

end Blueprint.Yaml
