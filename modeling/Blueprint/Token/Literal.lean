import Blueprint.Text.CodePoint
import Blueprint.Token.Issue

/-!
# String literals

A literal stands between two quotes of one kind, on one line, or between two triples of them, on any
number of lines. A backslash starts an escape: a short one, a line continuation, or a code point by
two or four digits to the base sixteen. Text that is no valid escape is kept as it is written and
reported. A literal without an end is reported too and has the content read so far.
-/

namespace Blueprint.Literal

open Blueprint.Text

/-- A part of a literal: the text it is written with and the text it stands for. -/
structure Piece where
  /-- The characters of the source. -/
  raw : List Char
  /-- The code points they stand for. -/
  content : Text
  /-- What is wrong with them. -/
  issue : Option LexicalIssue := none
  deriving DecidableEq, Repr

/-- How a literal ends. -/
inductive Ending where
  /-- With its closing delimiter. -/
  | closed (delimiter : List Char)
  /-- Before the end of the line. -/
  | lineEnd
  /-- At the end of the source. -/
  | sourceEnd
  deriving DecidableEq, Repr

/-- What stands for one character: itself. -/
def plain (c : Char) : Piece := ⟨[c], [.character c], none⟩

/-- The character that a short escape stands for. -/
def shortEscape? : Char → Option Char
  | 'n' => some '\n'
  | 'r' => some '\r'
  | 't' => some '\t'
  | 'b' => some '\x08'
  | 'f' => some '\x0c'
  | '\'' => some '\''
  | '"' => some '"'
  | '\\' => some '\\'
  | '$' => some '$'
  | _ => none

/-- The value of a digit to the base sixteen. -/
def hexValue? (c : Char) : Option Nat :=
  if '0' ≤ c ∧ c ≤ '9' then some (c.toNat - 48)
  else if 'a' ≤ c ∧ c ≤ 'f' then some (c.toNat - 87)
  else if 'A' ≤ c ∧ c ≤ 'F' then some (c.toNat - 55)
  else none

/-- The number that digits to the base sixteen write, or none if one of them is no such digit. -/
def hexNumber? (digits : List Char) : Option Nat :=
  digits.foldl (fun value c => do return (← value) * 16 + (← hexValue? c)) (some 0)

/-- An escape by number: the marker, then a fixed count of digits. A faulty one stands for its
backslash and marker, and its digits are read as ordinary text. -/
def numericEscape (marker : Char) (width : Nat) (rest : List Char) : Piece :=
  let digits := rest.take width
  let verbatim : Text := [.character '\\', .character marker]
  if digits.length < width then
    ⟨['\\', marker], verbatim, some (.incompleteEscape marker digits)⟩
  else
    match hexNumber? digits with
    | some code => ⟨'\\' :: marker :: digits, [.ofNat code], none⟩
    | none => ⟨['\\', marker], verbatim, some (.invalidEscape marker digits)⟩

/-- The escape that a backslash starts, given the text after it. -/
def escape : List Char → Piece
  | [] => plain '\\'
  | '\n' :: _ => ⟨['\\', '\n'], [], none⟩
  | '\r' :: '\n' :: _ => ⟨['\\', '\r', '\n'], [], none⟩
  | 'u' :: rest => numericEscape 'u' 4 rest
  | 'x' :: rest => numericEscape 'x' 2 rest
  | c :: _ =>
    match shortEscape? c with
    | some meaning => ⟨['\\', c], [.character meaning], none⟩
    | none => ⟨['\\', c], [.character '\\', .character c], some (.unknownEscape c)⟩

/-- The delimiter of a literal: its quote, once or three times. -/
def delimiter (quote : Char) (triple : Bool) : List Char :=
  if triple then [quote, quote, quote] else [quote]

/-- The next part of a literal, or its ending, given the character that stands next and the text
after that. -/
def next (quote : Char) (triple : Bool) (c : Char) (rest : List Char) : Piece ⊕ Ending :=
  if c = quote then
    if (delimiter quote triple).isPrefixOf (c :: rest) then .inr (.closed (delimiter quote triple))
    else .inl (plain c)
  else if c = '\n' && !triple then .inr .lineEnd
  else if c = '\\' then .inl (escape rest)
  else .inl (plain c)

/-- A numeric escape takes at least two characters. -/
theorem numericEscape_raw_ne_nil (marker : Char) (width : Nat) (rest : List Char) :
    (numericEscape marker width rest).raw ≠ [] := by
  unfold numericEscape
  dsimp only
  split
  · simp
  · split <;> simp

/-- An escape takes at least its backslash. -/
theorem escape_raw_ne_nil (rest : List Char) : (escape rest).raw ≠ [] := by
  unfold escape
  split
  · simp [plain]
  · simp
  · simp
  · exact numericEscape_raw_ne_nil _ _ _
  · exact numericEscape_raw_ne_nil _ _ _
  · split <;> simp

/-- Every part takes at least one character. -/
theorem raw_ne_nil_of_next {quote : Char} {triple : Bool} {c : Char} {rest : List Char}
    {piece : Piece} (h : next quote triple c rest = .inl piece) : piece.raw ≠ [] := by
  unfold next at h
  split at h
  · split at h
    · cases h
    · cases h
      simp [plain]
  · split at h
    · cases h
    · split at h
      · cases h
        exact escape_raw_ne_nil rest
      · cases h
        simp [plain]

/-- The parts of a literal after its opening delimiter, and how it ends. -/
def parts (quote : Char) (triple : Bool) : List Char → List Piece × Ending
  | [] => ([], .sourceEnd)
  | c :: rest =>
    match _taken : next quote triple c rest with
    | .inr ending => ([], ending)
    | .inl piece =>
      let more := parts quote triple ((c :: rest).drop piece.raw.length)
      (piece :: more.1, more.2)
  termination_by text => text.length
  decreasing_by
    have := List.length_pos_iff.mpr (raw_ne_nil_of_next _taken)
    simp only [List.length_drop, List.length_cons]
    omega

/-- A literal as a whole. -/
structure Scanned where
  /-- The characters of the source, delimiters included. -/
  raw : List Char
  /-- The text that the literal stands for. -/
  content : Text
  /-- What is wrong with it, in the order in which it is noticed. -/
  remarks : List Remark
  deriving DecidableEq, Repr

/-- The characters that an ending takes. -/
def Ending.raw : Ending → List Char
  | .closed delimiter => delimiter
  | .lineEnd => []
  | .sourceEnd => []

/-- What an ending is reported with: a line end where it stands, a missing end at the start of the
literal. -/
def Ending.remarks (length : Nat) : Ending → List Remark
  | .closed _ => []
  | .lineEnd => [⟨length, .lineEndInString⟩]
  | .sourceEnd => [⟨0, .unterminatedString⟩]

/-- What the parts of a literal are reported with, given the count of characters before them. -/
def partRemarks (distance : Nat) : List Piece → List Remark
  | [] => []
  | piece :: more =>
    (piece.issue.map (Remark.mk distance)).toList ++
      partRemarks (distance + piece.raw.length) more

/-- Whether two more quotes follow the opening one. -/
def opensTriple (quote : Char) (rest : List Char) : Bool :=
  [quote, quote].isPrefixOf rest

/-- The literal that starts with a quote, given the text after it. -/
def scan (quote : Char) (rest : List Char) : Scanned :=
  let triple := opensTriple quote rest
  let opening := delimiter quote triple
  let (pieces, ending) := parts quote triple (rest.drop (opening.length - 1))
  let body := opening ++ pieces.flatMap Piece.raw
  { raw := body ++ ending.raw
    content := pieces.flatMap Piece.content
    remarks := partRemarks opening.length pieces ++ ending.remarks body.length }

end Blueprint.Literal
