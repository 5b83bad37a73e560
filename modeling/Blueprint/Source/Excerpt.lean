import Blueprint.Source.Position
import Blueprint.Text.Blank

/-!
# Excerpts of a source text

An excerpt shows a line with some lines above and below it, each with its number. The line itself is
marked, and a caret in the row below it points at a column. Lines outside the source are left out;
there is no excerpt around a line that does not exist.
-/

namespace Blueprint.Excerpt

open Blueprint.Text

/-- The count of characters in which line numbers are written at least. -/
def gutterWidth : Nat := 4

/-- A text set to the right end of a field. -/
def padLeft (width : Nat) (text : List Char) : List Char :=
  List.replicate (width - text.length) ' ' ++ text

/-- One line with its mark and number. -/
def numberedLine (marked : Bool) (number : Nat) (text : List Char) : List Char :=
  (if marked then '>' else ' ') :: ' ' ::
    (padLeft gutterWidth (Nat.toDigits 10 number) ++ [' ', '|', ' '] ++ text)

/-- The row below the marked line, with the caret under a column. -/
def caretRow (column : Int) : List Char :=
  ' ' :: ' ' :: (padLeft gutterWidth [] ++ [' ', '|', ' '] ++
    List.replicate (column - 1).toNat ' ' ++ ['^'])

/-- The rows for consecutive lines, the first of which has the given number. -/
def rows (marked : Nat) (column : Int) (number : Nat) : List (List Char) → List (List Char)
  | [] => []
  | text :: rest =>
    let shown := numberedLine (number == marked) number text
    if number = marked then shown :: caretRow column :: rows marked column (number + 1) rest
    else shown :: rows marked column (number + 1) rest

/-- The rows of the excerpt around a line, with the given count of lines above and below. -/
def around (source : List Char) (line column context : Int) : List (List Char) :=
  let lines := splitOn '\n' source
  if line < 1 || decide ((lines.length : Int) < line) then []
  else
    let first := (max 1 (line - context)).toNat
    let last := (min (lines.length : Int) (line + context)).toNat
    rows line.toNat column first ((lines.take last).drop (first - 1))

/-- The text of the excerpt, its rows joined by line feeds. -/
def text (source : List Char) (line column context : Int) : String :=
  String.ofList (List.intercalate ['\n'] (around source line column context))

end Blueprint.Excerpt
