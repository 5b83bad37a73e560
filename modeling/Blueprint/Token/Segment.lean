import Blueprint.Number.Numeral
import Blueprint.Text.Letter
import Blueprint.Token.Basic
import Blueprint.Token.Literal

/-!
# Segments of a source text

A source text falls into segments without a gap: the text of a token, a blank, a comment, or a
character that no token starts with. Every segment is the longest of its sort. The segments are
found by reading one after the other; a segment depends on the text from its start on and on nothing
before it.
-/

namespace Blueprint

open Blueprint.Text

/-- A piece of a source text. -/
inductive Segment where
  /-- The text of a token that is no string literal. -/
  | lexeme (kind : Kind) (text : List Char)
  /-- A string literal. -/
  | literal (scanned : Literal.Scanned)
  /-- A space, tab, carriage return or line feed. -/
  | blank (c : Char)
  /-- A comment up to the end of its line. -/
  | lineComment (text : List Char)
  /-- A comment between its delimiters, or up to the end of the source if they do not balance. -/
  | blockComment (text : List Char) (closed : Bool)
  /-- A character that no token starts with. -/
  | unexpected (c : Char)
  deriving DecidableEq, Repr

namespace Segment

/-- The characters of a segment. -/
def text : Segment → List Char
  | .lexeme _ text => text
  | .literal scanned => scanned.raw
  | .blank c => [c]
  | .lineComment text => text
  | .blockComment text _ => text
  | .unexpected c => [c]

/-- What is wrong with a segment. -/
def remarks : Segment → List Remark
  | .literal scanned => scanned.remarks
  | .blockComment _ false => [⟨0, .unterminatedComment⟩]
  | .unexpected c => [⟨0, .unexpectedCharacter c⟩]
  | _ => []

/-- The blanks that separate tokens. -/
def separates (c : Char) : Bool :=
  c == ' ' || c == '\t' || c == '\r' || c == '\n'

/-- A block comment after its opening delimiter, inside the given count of further ones. Delimiters
nest. -/
def commentBody : Nat → List Char → List Char × Bool
  | _, [] => ([], false)
  | depth, '/' :: '*' :: rest =>
    let (text, closed) := commentBody (depth + 1) rest
    ('/' :: '*' :: text, closed)
  | 0, '*' :: '/' :: _ => (['*', '/'], true)
  | depth + 1, '*' :: '/' :: rest =>
    let (text, closed) := commentBody depth rest
    ('*' :: '/' :: text, closed)
  | depth, c :: rest =>
    let (text, closed) := commentBody depth rest
    (c :: text, closed)

/-- A number: digits, and a point with digits on both sides if there is one. -/
def number (first : Char) (rest : List Char) : Segment :=
  let whole := rest.takeWhile Char.isDigit
  match rest.dropWhile Char.isDigit with
  | '.' :: digit :: more =>
    if digit.isDigit then
      .lexeme .float (first :: whole ++ '.' :: digit :: more.takeWhile Char.isDigit)
    else .lexeme .integer (first :: whole)
  | _ => .lexeme .integer (first :: whole)

/-- The kind of a word. -/
def wordKind (word : List Char) : Kind :=
  if word = "true".toList || word = "false".toList then .boolean
  else match Keyword.find? (String.ofList word) with
    | some keyword => .keyword keyword
    | none => .identifier

/-- The kind of a directive, without its exclamation mark. -/
def directiveKind (name : List Char) : Kind :=
  match Directive.find? (String.ofList name) with
  | some directive => .directive directive
  | none => .identifier

/-- The segment that starts with a character, given the text after it. -/
def next (c : Char) (rest : List Char) : Segment :=
  match Sign.ofChar? c with
  | some sign => .lexeme (.sign sign) [c]
  | none =>
    if separates c then .blank c
    else if c = '-' then
      match rest with
      | '>' :: _ => .lexeme (.sign .arrow) ['-', '>']
      | _ => .lexeme (.sign .minus) ['-']
    else if c = '/' then
      match rest with
      | '/' :: more => .lineComment ('/' :: '/' :: more.takeWhile (· != '\n'))
      | '*' :: more =>
        let (text, closed) := commentBody 0 more
        .blockComment ('/' :: '*' :: text) closed
      | _ => .lexeme (.sign .slash) ['/']
    else if c = '!' then
      match rest with
      | first :: _ =>
        if startsWord first then
          let name := rest.takeWhile continuesWord
          .lexeme (directiveKind name) ('!' :: name)
        else .lexeme (.sign .bang) ['!']
      | [] => .lexeme (.sign .bang) ['!']
    else if c = '"' || c = '\'' then .literal (Literal.scan c rest)
    else if c.isDigit then number c rest
    else if startsWord c then
      let word := c :: rest.takeWhile continuesWord
      .lexeme (wordKind word) word
    else .unexpected c

/-- A segment has at least one character. -/
theorem text_next_ne_nil (c : Char) (rest : List Char) : (next c rest).text ≠ [] := by
  unfold next
  repeat' split
  all_goals first
    | simp [text]; done
    | skip
  · unfold Literal.scan
    simp only [text, Literal.delimiter]
    split <;> simp
  · unfold number
    dsimp only
    repeat' split
    all_goals simp [text]

/-- The segments of a text in order. -/
def ofText : List Char → List Segment
  | [] => []
  | c :: rest =>
    let segment := next c rest
    segment :: ofText ((c :: rest).drop segment.text.length)
  termination_by text => text.length
  decreasing_by
    have := List.length_pos_iff.mpr (text_next_ne_nil c rest)
    simp only [List.length_drop, List.length_cons]
    omega

/-- The value of a token that is no string literal. -/
def valueOf (kind : Kind) (text : List Char) : Except Number.Fault Value :=
  match kind with
  | .integer => do return .integer (← Number.read text)
  | .float =>
    let whole := text.takeWhile Char.isDigit
    let fraction := (text.dropWhile Char.isDigit).drop 1
    let digits := Number.ofDigits 10 ((whole ++ fraction).map fun c => c.toNat - 48)
    .ok (.decimal (.ofDecimal digits (-(fraction.length : Int))))
  | .boolean => .ok (.boolean (text == "true".toList))
  | _ => .ok .absent

/-- The token of a segment that starts at a place, if it has one. -/
def tokenAt (position : Position) : Segment → Except Number.Fault (Option Token)
  | .lexeme kind text => do
    return some ⟨kind, String.ofList text, position, ← valueOf kind text⟩
  | .literal scanned =>
    .ok (some ⟨.string, String.ofList scanned.raw, position, .text scanned.content⟩)
  | _ => .ok none

/-- The places of segments that follow each other from a place on. -/
def placed (position : Position) : List Segment → List (Position × Segment)
  | [] => []
  | segment :: rest => (position, segment) :: placed (position.after segment.text) rest

end Segment

end Blueprint
