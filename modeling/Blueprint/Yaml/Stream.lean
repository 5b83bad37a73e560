import Blueprint.Number.Numeral
import Blueprint.Text.Utf8
import Blueprint.Yaml.Scalar
import Blueprint.Yaml.Token

/-!
# The tokens of a YAML text

Whether something is a key shows only when its colon is met: a possible key is remembered with its
place among the tokens, and the token for the key is put in there afterwards. A key ends on the line
on which it starts.
-/

namespace Blueprint.Yaml

/-- What may turn out to be a key. -/
structure PossibleKey where
  /-- The count of tokens before it. -/
  slot : Nat
  /-- Whether nothing else can stand here. -/
  required : Bool
  /-- Where it starts. -/
  start : Cursor

/-- How far a text is cut into tokens. -/
structure Scan where
  /-- The place in the text. -/
  cursor : Cursor
  /-- The tokens so far. -/
  tokens : List Token := []
  /-- The column of the innermost collection by indentation; there is none at -1. -/
  indent : Int := -1
  /-- The columns of the collections around it, the innermost first. -/
  outer : List Int := []
  /-- The possible keys, one for each pair of open brackets and one outside, the innermost first. -/
  keys : List (Option PossibleKey) := [none]
  /-- Whether a key may start here. -/
  mayStartKey : Bool := true

namespace Scan

/-- The greatest length of a key. -/
def keyLimit : Nat := 1024

/-- Whether the place is inside brackets. -/
def inFlow (scan : Scan) : Bool := scan.keys.length > 1

/-- Adds a token. -/
def emit (scan : Scan) (token : Token) : Scan :=
  { scan with tokens := scan.tokens ++ [token] }

/-- Puts tokens in at a place among the tokens. -/
def emitAt (scan : Scan) (slot : Nat) (tokens : List Token) : Scan :=
  { scan with tokens := scan.tokens.take slot ++ tokens ++ scan.tokens.drop slot }

/-- Goes on after several characters. -/
def skip (scan : Scan) (count : Nat) : Scan := { scan with cursor := scan.cursor.skip count }

/-- Goes on after blanks, comments and line ends. Outside of brackets a key may start on a new
line. -/
def skipGaps : Nat → Scan → Scan
  | 0, scan => scan
  | count + 1, scan =>
    let cursor := scan.cursor.skipRun (· == ' ')
    let cursor := if cursor.rest.head? == some '#' then cursor.skipRun (!isBreak ·) else cursor
    if atBreak cursor.rest then
      skipGaps count { scan with
        cursor := cursor.lineEnd.2
        mayStartKey := scan.mayStartKey || !scan.inFlow }
    else { scan with cursor }

/-- Drops the possible keys that did not end on their line or are too long. -/
def dropStaleKeys (scan : Scan) : Option Scan := do
  let keys ← scan.keys.mapM fun key? =>
    match key? with
    | none => some none
    | some key =>
      if key.start.line != scan.cursor.line || key.start.index + keyLimit < scan.cursor.index then
        if key.required then none else some none
      else some (some key)
  return { scan with keys }

/-- Closes the collections that are indented further than the given column. -/
def closeTo (column : Int) : Nat → Scan → Scan
  | 0, scan => scan
  | count + 1, scan =>
    if column < scan.indent then
      closeTo column count
        { (scan.emit .blockEnd) with
          indent := scan.outer.headD (-1)
          outer := scan.outer.tail }
    else scan

/-- Closes the collections that end before the given column, unless inside of brackets. -/
def unwind (scan : Scan) (column : Int) : Scan :=
  if scan.inFlow then scan else closeTo column (scan.outer.length + 1) scan

/-- Opens a collection by indentation at a column unless it is open, and says whether it was
opened. -/
def openAt (scan : Scan) (column : Nat) : Bool × Scan :=
  if scan.indent < column then
    (true, { scan with indent := column, outer := scan.indent :: scan.outer })
  else (false, scan)

/-- Gives up the possible key of the innermost brackets. -/
def dropKey (scan : Scan) : Option Scan :=
  match scan.keys with
  | some key :: rest => if key.required then none else some { scan with keys := none :: rest }
  | _ => some scan

/-- Remembers that a key may start here. -/
def saveKey (scan : Scan) : Option Scan :=
  if scan.mayStartKey then do
    let scan ← scan.dropKey
    let key : PossibleKey :=
      { slot := scan.tokens.length
        required := !scan.inFlow && scan.indent == scan.cursor.column
        start := scan.cursor }
    return { scan with keys := some key :: scan.keys.tail }
  else some scan

/-- What starts at a place and may be a key, up to the given place. -/
def emitNode (scan : Scan) (token : Token) (cursor : Cursor) (mayStartKey : Bool) :
    Option Scan := do
  let scan ← scan.saveKey
  return { (scan.emit token) with cursor, mayStartKey }

/-- A mark of a document, or a directive. -/
def emitMark (scan : Scan) (token : Token) (cursor : Cursor) : Option Scan := do
  let scan ← (scan.unwind (-1)).dropKey
  return { (scan.emit token) with cursor, mayStartKey := false }

/-- An opening bracket. -/
def openFlow (scan : Scan) (token : Token) : Option Scan := do
  let scan ← scan.saveKey
  return { ((scan.emit token).skip 1) with keys := none :: scan.keys, mayStartKey := true }

/-- A closing bracket. -/
def closeFlow (scan : Scan) (token : Token) : Option Scan := do
  let scan ← scan.dropKey
  guard scan.inFlow
  return { ((scan.emit token).skip 1) with keys := scan.keys.tail, mayStartKey := false }

/-- A comma. -/
def separate (scan : Scan) : Option Scan := do
  let scan ← scan.dropKey
  return { ((scan.emit .flowEntry).skip 1) with mayStartKey := true }

/-- The dash of an item or the mark of a key, which open a collection by indentation. -/
def emitEntry (scan : Scan) (opening token : Token) (mayStartKey : Bool) : Option Scan := do
  let scan ←
    if scan.inFlow then pure scan
    else do
      guard scan.mayStartKey
      let (opened, scan) := scan.openAt scan.cursor.column
      pure (if opened then scan.emit opening else scan)
  let scan ← scan.dropKey
  return { ((scan.emit token).skip 1) with mayStartKey }

/-- The colon of a value. If a possible key stands before it, it is a key. -/
def emitValue (scan : Scan) : Option Scan :=
  match scan.keys with
  | some key :: rest =>
    let scan := { scan with keys := none :: rest }
    let (opened, scan) := if scan.inFlow then (false, scan) else scan.openAt key.start.column
    let tokens := if opened then [.blockMapping, .key] else [.key]
    some { (((scan.emitAt key.slot tokens).emit .value).skip 1) with mayStartKey := false }
  | _ => scan.emitEntry .blockMapping .value (!scan.inFlow)

/-! ## Names, tags and directives -/

/-- A letter of a name. -/
def isNameChar (c : Char) : Bool := c.isAlphanum || c == '-' || c == '_'

/-- A character of a tag. -/
def isTagChar (c : Char) : Bool :=
  isNameChar c || ";/?:@&=+$,_.!~*'()[]%".toList.contains c

/-- Whether a name may end before a text. -/
def nameEnds : List Char → Bool
  | [] => true
  | c :: rest => atGap (c :: rest) || "?:,]\x7d%@`".toList.contains c

/-- The name after the sign of an alias or anchor, and the place after it. -/
def scanName (cursor : Cursor) : Option (String × Cursor) :=
  let cursor := cursor.next
  let name := cursor.run isNameChar
  let after := cursor.skip name.length
  if name.isEmpty || !nameEnds after.rest then none else some (String.ofList name, after)

/-- The text of a tag, in which octets may be written as numbers, after the given octets. -/
def unescapeTag (octets : List UInt8) : List Char → Option (List Char)
  | [] => (Text.Utf8.decodeFrom 0 0 octets).toOption
  | '%' :: a :: b :: rest => do
    let number ← Literal.hexNumber? [a, b]
    unescapeTag (octets ++ [UInt8.ofNat number]) rest
  | '%' :: _ => none
  | c :: rest => do
    let start ← (Text.Utf8.decodeFrom 0 0 octets).toOption
    let more ← unescapeTag [] rest
    return start ++ c :: more

/-- A tag, and the place after it. -/
def scanTag (cursor : Cursor) : Option (Tag × Cursor) := do
  let done := fun (handle : Option String) (text : List Char) (after : Cursor) => do
    let suffix ← unescapeTag [] text
    guard (atGap after.rest)
    return (Tag.mk handle (String.ofList suffix), after)
  match cursor.rest with
  | _ :: '<' :: _ =>
    let start := cursor.skip 2
    let text := start.run isTagChar
    let after := start.skip text.length
    guard (!text.isEmpty && after.rest.head? == some '>')
    done none text after.next
  | _ :: rest =>
    let whole := rest.takeWhile fun c => c != ' ' && !isBreak c
    if atGap rest then done none ['!'] cursor.next
    else if whole.contains '!' then
        let word := rest.takeWhile isNameChar
        guard ((rest.drop word.length).head? == some '!')
        let start := cursor.skip (word.length + 2)
        let text := start.run isTagChar
        guard (!text.isEmpty)
        done (some (String.ofList ('!' :: word ++ ['!']))) text (start.skip text.length)
      else
        let start := cursor.next
        let text := start.run isTagChar
        guard (!text.isEmpty)
        done (some "!") text (start.skip text.length)
  | [] => none

/-- What has to be there, or else the text is malformed. -/
def orMalformed {α : Type} : Option α → Except Fault α
  | some value => .ok value
  | none => .error .malformed

/-- A number of a directive, and the place after it. -/
def scanNumber (cursor : Cursor) : Except Fault (Nat × Cursor) := do
  let digits := cursor.run Char.isDigit
  if digits.isEmpty then throw .malformed
  let value ← (Number.read digits).mapError .number
  return (value, cursor.skip digits.length)

/-- The place after spaces. -/
def afterSpaces (cursor : Cursor) : Cursor := cursor.skipRun (· == ' ')

/-- Whether a part of a directive may end at a place. -/
def directivePartEnds (cursor : Cursor) : Bool :=
  atGap cursor.rest && cursor.rest.head? != some '\t'

/-- The version of a directive, and the place after it. -/
def scanVersion (cursor : Cursor) : Except Fault (Token × Cursor) := do
  let (major, cursor) ← scanNumber cursor
  if cursor.rest.head? != some '.' then throw .malformed
  let (minor, cursor) ← scanNumber cursor.next
  if !directivePartEnds cursor then throw .malformed
  return (.version major minor, cursor)

/-- The handle of a directive and what it stands for, and the place after them. -/
def scanTagHandle (start : Cursor) : Option (Token × Cursor) := do
  guard (start.rest.head? == some '!')
  let word := start.next.run isNameChar
  let close := start.next.skip word.length
  let (handle, close) ←
    if close.rest.head? == some '!' then pure ('!' :: word ++ ['!'], close.next)
    else if word.isEmpty then pure (['!'], close)
    else none
  guard (close.rest.head? == some ' ')
  let start := afterSpaces close
  let text := start.run isTagChar
  let close := start.skip text.length
  guard (!text.isEmpty && directivePartEnds close)
  let meaning ← unescapeTag [] text
  return (.tagHandle (String.ofList handle) (String.ofList meaning), close)

/-- A directive, and the place after its line. -/
def scanDirective (cursor : Cursor) : Except Fault (Token × Cursor) := do
  let name := cursor.next.run isNameChar
  let after := cursor.next.skip name.length
  if name.isEmpty || !directivePartEnds after then throw .malformed
  let (token, after) ←
    if name == "YAML".toList then scanVersion (afterSpaces after)
    else if name == "TAG".toList then orMalformed (scanTagHandle (afterSpaces after))
    else pure (.otherDirective, after.skipRun (!isBreak ·))
  return (token, ← orMalformed (restOfLine after))

/-! ## The text as a whole -/

/-- Whether a plain scalar starts with a text. -/
def startsPlain (inFlow : Bool) : List Char → Bool
  | [] => false
  | c :: rest =>
    !(atGap [c] || "-?:,[]\x7b\x7d#&*!|>'\"%@`".toList.contains c) ||
      (!atGap rest && (c == '-' || (!inFlow && (c == '?' || c == ':'))))

/-- Takes the next token, which starts here. -/
def takeToken (scan : Scan) : Except Fault Scan :=
  let cursor := scan.cursor
  let isGapNext := atGap cursor.rest.tail
  let atStart := cursor.column == 0
  let named := fun (token : String → Token) => orMalformed do
    let (name, after) ← scanName cursor
    scan.emitNode (token name) after false
  let quoted := fun (double : Bool) => do
    let scanned ← scanQuoted double cursor
    orMalformed (scan.emitNode (.scalar (String.ofList scanned.text) .quoted) scanned.cursor false)
  let plain : Except Fault Scan := orMalformed <|
    if startsPlain scan.inFlow cursor.rest then
      let scanned := scanPlain scan.inFlow (scan.indent + 1).toNat cursor
      scan.emitNode (.scalar (String.ofList scanned.text) .plain) scanned.cursor
        scanned.atLineStart
    else none
  if atStart && atDocumentMark cursor.rest then
    let mark := if cursor.rest.head? == some '-' then Token.documentStart else .documentEnd
    orMalformed (scan.emitMark mark (cursor.skip 3))
  else
    match cursor.rest.head? with
    | some '%' =>
      if atStart then do
        let (token, after) ← scanDirective cursor
        orMalformed (scan.emitMark token after)
      else .error .malformed
    | some '[' => orMalformed (scan.openFlow .openSequence)
    | some '\x7b' => orMalformed (scan.openFlow .openMapping)
    | some ']' => orMalformed (scan.closeFlow .closeSequence)
    | some '\x7d' => orMalformed (scan.closeFlow .closeMapping)
    | some ',' => orMalformed scan.separate
    | some '-' =>
      if isGapNext then orMalformed (scan.emitEntry .blockSequence .blockEntry true) else plain
    | some '?' =>
      if scan.inFlow || isGapNext then
        orMalformed (scan.emitEntry .blockMapping .key (!scan.inFlow))
      else plain
    | some ':' => if scan.inFlow || isGapNext then orMalformed scan.emitValue else plain
    | some '*' => named .alias
    | some '&' => named .anchor
    | some '!' => orMalformed do
      let (tag, after) ← scanTag cursor
      scan.emitNode (.tag tag) after false
    | some '\'' => quoted false
    | some '"' => quoted true
    | some c =>
      if (c == '|' || c == '>') && !scan.inFlow then orMalformed do
        let scan ← scan.dropKey
        let scanned ← scanBlock (c == '>') scan.indent cursor
        return { (scan.emit (.scalar (String.ofList scanned.text) .quoted)) with
          cursor := scanned.cursor, mayStartKey := true }
      else plain
    | none => .error .malformed

/-- The tokens that no key can be put in before any more. -/
def settledTokens (scan : Scan) : List Token :=
  let slots := scan.keys.filterMap fun key? => key?.map PossibleKey.slot
  scan.tokens.take (slots.foldl min scan.tokens.length)

end Scan

/-- The tokens of a text, and why there are no more of them, unless the text ends. -/
structure Scanned where
  /-- The tokens. -/
  tokens : List Token
  /-- What is wrong after them. -/
  fault : Option Fault
  deriving Repr

namespace Scanned

/-- No tokens, because the text is malformed. -/
def malformed : Scanned := ⟨[], some .malformed⟩

/-- Cuts the text from a place on into tokens, at most the given count. -/
def ofScan : Nat → Scan → Scanned
  | 0, _ => .malformed
  | count + 1, scan =>
    match scan.dropStaleKeys, (Scan.skipGaps (scan.cursor.rest.length + 1) scan).dropStaleKeys with
    | some settled, some next =>
      let next := next.unwind next.cursor.column
      if next.cursor.rest.isEmpty then
        match (next.unwind (-1)).dropKey with
        | some last => ⟨last.tokens, none⟩
        | none => .malformed
      else
        match next.takeToken with
        | .ok next => ofScan count next
        | .error fault => ⟨settled.settledTokens, some fault⟩
    | _, _ => .malformed

/-- A character that a YAML text may hold. -/
def isPrintable (c : Char) : Bool :=
  c == '\t' || c == '\n' || c == '\r' || (' ' ≤ c && c ≤ '~') || c == '\x85' ||
    ('\xa0' ≤ c && c ≤ '\uD7FF') || ('\uE000' ≤ c && c ≤ '\uFFFD') || 0x10000 ≤ c.toNat

/-- Cuts a text into tokens. A byte order mark at its start does not count. -/
def ofText (text : List Char) : Scanned :=
  if text.all isPrintable then
    let cursor : Cursor := { rest := text }
    let cursor := if text.head? == some '\uFEFF' then cursor.next else cursor
    ofScan (text.length + 1) { cursor }
  else .malformed

end Scanned

end Blueprint.Yaml
