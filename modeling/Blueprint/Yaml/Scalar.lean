import Blueprint.Token.Literal
import Blueprint.Yaml.Cursor
import Blueprint.Yaml.Fault

/-!
# Scalars of a YAML text

The text of a scalar without quotes, between quotes, or in a block of lines. A line end inside a
scalar counts as a blank, and further line ends stay.
-/

namespace Blueprint.Yaml

/-- A scalar that was read: its text, and the place after it. -/
structure ScannedScalar where
  /-- The text. -/
  text : List Char
  /-- The place after the scalar. -/
  cursor : Cursor
  /-- Whether the scalar reached the start of a line, where a key may stand. -/
  atLineStart : Bool := false

/-- A line end and the line ends after it: a single one counts as a blank. -/
def folded (first : List Char) (more : List Char) : List Char :=
  if first != ['\n'] then first ++ more
  else if more.isEmpty then [' ']
  else more

/-! ## Plain scalars -/

/-- The characters that end a plain scalar inside brackets. -/
def flowIndicators : List Char := [',', '?', '[', ']', '\x7b', '\x7d']

/-- The characters after which a colon inside brackets is no part of a plain scalar. -/
def flowClosers : List Char := [',', '[', ']', '\x7b', '\x7d']

/-- Whether a plain scalar ends before a text. -/
def plainEnds (inFlow : Bool) : List Char → Bool
  | [] => true
  | c :: rest =>
    atGap [c] ||
      (c == ':' && (atGap rest ||
        (inFlow && (rest.head?.map flowClosers.contains).getD false))) ||
      (inFlow && flowIndicators.contains c)

/-- The part of a plain scalar up to the next blank. -/
def plainWord (inFlow : Bool) : List Char → List Char
  | [] => []
  | c :: rest => if plainEnds inFlow (c :: rest) then [] else c :: plainWord inFlow rest

/-- The line ends from a place on, with the blanks that indent lines; nothing if a mark of a
document stands there. -/
def plainBreaks : Nat → Cursor → Option (List Char) × Cursor
  | 0, cursor => (some [], cursor)
  | count + 1, cursor =>
    match cursor.rest with
    | ' ' :: _ => plainBreaks count cursor.next
    | _ =>
      if atBreak cursor.rest then
        let (first, after) := cursor.lineEnd
        if atDocumentMark after.rest then (none, after)
        else
          let (more, cursor) := plainBreaks count after
          (more.map (first ++ ·), cursor)
      else (some [], cursor)

/-- The blanks and line ends between two parts of a plain scalar, the place after them, and whether
a line ended; no blanks if the scalar ends here. -/
def plainGap (cursor : Cursor) : List Char × Cursor × Bool :=
  let blanks := cursor.run (· == ' ')
  let cursor := cursor.skip blanks.length
  if atBreak cursor.rest then
    let (first, after) := cursor.lineEnd
    if atDocumentMark after.rest then ([], after, true)
    else
      match plainBreaks (after.rest.length + 1) after with
      | (none, cursor) => ([], cursor, true)
      | (some more, cursor) => (folded first more, cursor, true)
  else (blanks, cursor, false)

/-- A plain scalar from a place on, in at most the given count of parts; lines that are indented
less than the given column do not belong to it. -/
def plainParts (inFlow : Bool) (indent : Nat) : Nat → List Char → Cursor → Bool → ScannedScalar
  | 0, _, cursor, atLineStart => ⟨[], cursor, atLineStart⟩
  | count + 1, gap, cursor, atLineStart =>
    let word := if cursor.rest.head? == some '#' then [] else plainWord inFlow cursor.rest
    if word.isEmpty then ⟨[], cursor, atLineStart⟩
    else
      let (next, after, broken) := plainGap (cursor.skip word.length)
      if next.isEmpty || after.rest.head? == some '#' || (!inFlow && after.column < indent) then
        ⟨gap ++ word, after, broken⟩
      else
        let scanned := plainParts inFlow indent count next after broken
        { scanned with text := gap ++ word ++ scanned.text }

/-- A plain scalar. -/
def scanPlain (inFlow : Bool) (indent : Nat) (cursor : Cursor) : ScannedScalar :=
  plainParts inFlow indent (cursor.rest.length + 1) [] cursor false

/-! ## Quoted scalars -/

/-- The character that a short escape writes. -/
def shortEscape? : Char → Option Char
  | '0' => some '\x00'
  | 'a' => some '\x07'
  | 'b' => some '\x08'
  | 't' => some '\t'
  | '\t' => some '\t'
  | 'n' => some '\n'
  | 'v' => some '\x0b'
  | 'f' => some '\x0c'
  | 'r' => some '\r'
  | 'e' => some '\x1b'
  | ' ' => some ' '
  | '"' => some '"'
  | '\\' => some '\\'
  | '/' => some '/'
  | 'N' => some '\x85'
  | '_' => some '\xa0'
  | 'L' => some '\u2028'
  | 'P' => some '\u2029'
  | _ => none

/-- The count of digits of an escape by number. -/
def escapeWidth? : Char → Option Nat
  | 'x' => some 2
  | 'u' => some 4
  | 'U' => some 8
  | _ => none

/-- The line ends from a place on inside quotes, without the blanks around them; a mark of a
document may not stand there. -/
def quotedBreaks : Nat → Cursor → Except Fault (List Char × Cursor)
  | 0, _ => .error .malformed
  | count + 1, cursor =>
    if atDocumentMark cursor.rest then .error .malformed
    else
      let cursor := cursor.skipRun isSpace
      if atBreak cursor.rest then do
        let (first, after) := cursor.lineEnd
        let (more, cursor) ← quotedBreaks count after
        return (first ++ more, cursor)
      else .ok ([], cursor)

/-- An escape after its backslash. -/
def quotedEscape (cursor : Cursor) : Except Fault (List Char × Cursor) :=
  match cursor.rest with
  | [] => .error .malformed
  | c :: rest =>
    match shortEscape? c with
    | some character => .ok ([character], cursor.next)
    | none =>
      match escapeWidth? c with
      | some width =>
        let digits := rest.take width
        match Literal.hexNumber? digits with
        | some code =>
          if digits.length < width then .error .malformed
          else if codePointLimit ≤ code then .error (.codePoint code)
          else .ok ([Char.ofNat code], cursor.skip (width + 1))
        | none => .error .malformed
      | none =>
        if isBreak c then
          let (_, after) := cursor.lineEnd
          quotedBreaks (after.rest.length + 1) after
        else .error .malformed

/-- A quoted scalar after its opening quote, in at most the given count of parts. -/
def quotedParts (double : Bool) : Nat → Cursor → Except Fault (List Char × Cursor)
  | 0, _ => .error .malformed
  | count + 1, cursor =>
    match cursor.rest with
    | [] => .error .malformed
    | c :: rest =>
      if !double && c == '\'' then
        if rest.head? == some '\'' then do
          let (more, cursor) ← quotedParts double count (cursor.skip 2)
          return ('\'' :: more, cursor)
        else .ok ([], cursor.next)
      else if double && c == '"' then .ok ([], cursor.next)
      else if double && c == '\\' then do
        let (characters, cursor) ← quotedEscape cursor.next
        let (more, cursor) ← quotedParts double count cursor
        return (characters ++ more, cursor)
      else if isSpace c || isBreak c then
        let blanks := cursor.run isSpace
        let cursor := cursor.skip blanks.length
        if atBreak cursor.rest then do
          let (first, after) := cursor.lineEnd
          let (breaks, cursor) ← quotedBreaks (after.rest.length + 1) after
          let (more, cursor) ← quotedParts double count cursor
          return (folded first breaks ++ more, cursor)
        else do
          let (more, cursor) ← quotedParts double count cursor
          return (blanks ++ more, cursor)
      else do
        let (more, cursor) ← quotedParts double count cursor.next
        return (c :: more, cursor)

/-- A quoted scalar from its opening quote on. -/
def scanQuoted (double : Bool) (cursor : Cursor) : Except Fault ScannedScalar := do
  let (text, cursor) ← quotedParts double (cursor.rest.length + 1) cursor.next
  return ⟨text, cursor, false⟩

/-! ## Blocks of lines -/

/-- What becomes of the line ends at the end of a block. -/
inductive Chomping where
  | strip | clip | keep
  deriving DecidableEq, Repr

/-- What the head of a block says: what becomes of its end, and how far it is indented. -/
def blockHead (cursor : Cursor) : Option (Chomping × Option Nat × Cursor) :=
  let chomping? := fun c : Char => if c == '+' then some Chomping.keep
    else if c == '-' then some Chomping.strip else none
  let digit? := fun c : Char => if '0' ≤ c && c ≤ '9' then some (c.toNat - 48) else none
  match cursor.rest with
  | [] => some (.clip, none, cursor)
  | c :: rest =>
    match chomping? c, digit? c with
    | some chomping, _ =>
      match rest.head?.bind digit? with
      | some 0 => none
      | some width => some (chomping, some width, cursor.skip 2)
      | none => some (chomping, none, cursor.next)
    | none, some 0 => none
    | none, some width =>
      match rest.head?.bind chomping? with
      | some chomping => some (chomping, some width, cursor.skip 2)
      | none => some (.clip, some width, cursor.next)
    | none, none => some (.clip, none, cursor)

/-- The rest of a line that may hold blanks and a comment only. -/
def restOfLine (cursor : Cursor) : Option Cursor :=
  let cursor := cursor.skipRun (· == ' ')
  let cursor := if cursor.rest.head? == some '#' then cursor.skipRun (!isBreak ·) else cursor
  if cursor.rest.isEmpty || atBreak cursor.rest then some cursor.lineEnd.2 else none

/-- The empty lines at a place, and the widest of their indentations. -/
def blockIndentation : Nat → Nat → Cursor → List Char × Nat × Cursor
  | 0, widest, cursor => ([], widest, cursor)
  | count + 1, widest, cursor =>
    match cursor.rest with
    | ' ' :: _ =>
      let cursor := cursor.next
      blockIndentation count (max widest cursor.column) cursor
    | _ =>
      if atBreak cursor.rest then
        let (first, after) := cursor.lineEnd
        let (more, widest, cursor) := blockIndentation count widest after
        (first ++ more, widest, cursor)
      else ([], widest, cursor)

/-- The place after the blanks that indent a line, up to the given column. -/
def skipIndentation (indent : Nat) : Nat → Cursor → Cursor
  | 0, cursor => cursor
  | count + 1, cursor =>
    if cursor.column < indent && cursor.rest.head? == some ' ' then
      skipIndentation indent count cursor.next
    else cursor

/-- The empty lines at a place, with indentation up to the given column. -/
def blockBreaks (indent : Nat) : Nat → Cursor → List Char × Cursor
  | 0, cursor => ([], cursor)
  | count + 1, cursor =>
    let cursor := skipIndentation indent indent cursor
    if atBreak cursor.rest then
      let (first, after) := cursor.lineEnd
      let (more, cursor) := blockBreaks indent count after
      (first ++ more, cursor)
    else ([], cursor)

/-- A block of lines while it is read. -/
structure BlockLines where
  /-- The text of the lines. -/
  text : List Char
  /-- The end of the last line. -/
  lineEnd : List Char
  /-- The empty lines after the last line. -/
  empty : List Char
  /-- The place after them. -/
  cursor : Cursor

/-- Whether a line of a block with the given indentation starts at a place. -/
def atBlockLine (indent : Nat) (cursor : Cursor) : Bool :=
  cursor.column == indent && !cursor.rest.isEmpty

/-- At most the given count of lines of a block, after empty lines. A folded block has a blank for
the end of a line between two lines that start without blanks. -/
def blockLines (folding : Bool) (indent : Nat) : Nat → BlockLines → BlockLines
  | 0, before => { before with text := [] }
  | count + 1, before =>
    let cursor := before.cursor
    if atBlockLine indent cursor then
      let line := cursor.run (!isBreak ·)
      let (lineEnd, after) := (cursor.skip line.length).lineEnd
      let (empty, after) := blockBreaks indent (after.rest.length + 1) after
      let indented := fun cursor : Cursor => (cursor.rest.head?.map isSpace).getD false
      let joint :=
        if !atBlockLine indent after then []
        else if folding && lineEnd == ['\n'] && !indented cursor && !indented after then
          if empty.isEmpty then [' '] else []
        else lineEnd
      let more := blockLines folding indent count ⟨[], lineEnd, empty, after⟩
      { more with text := before.empty ++ line ++ joint ++ more.text }
    else { before with text := [] }

/-- A block of lines from its sign on, given the indentation around it. -/
def scanBlock (folding : Bool) (outer : Int) (cursor : Cursor) : Option ScannedScalar := do
  let (chomping, width, cursor) ← blockHead cursor.next
  guard (atGap cursor.rest && cursor.rest.head? != some '\t')
  let cursor ← restOfLine cursor
  let least := (max (outer + 1) 1).toNat
  let count := cursor.rest.length + 1
  let (indent, empty, cursor) := match width with
    | some width =>
      let indent := least + width - 1
      let (empty, cursor) := blockBreaks indent count cursor
      (indent, empty, cursor)
    | none =>
      let (empty, widest, cursor) := blockIndentation count 0 cursor
      (max least widest, empty, cursor)
  let lines := blockLines folding indent count ⟨[], [], empty, cursor⟩
  let tail := match chomping with
    | .strip => []
    | .clip => lines.lineEnd
    | .keep => lines.lineEnd ++ lines.empty
  return ⟨lines.text ++ tail, lines.cursor, true⟩

end Blueprint.Yaml
