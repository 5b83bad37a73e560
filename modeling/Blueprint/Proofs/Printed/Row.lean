import Mathlib.Data.List.TakeWhile
import Blueprint.Proofs.Token.Lines
import Blueprint.Proofs.Token.Spelled

/-!
# Rows of tokens as source text

A token is printed from what it stands for: a name, a reserved word, a sign, or a text between
double quotes in which the backslash, the double quote and the line feed are escaped. A row is
printed with a blank between any two of its tokens and a line feed at its end. Reading the printed
rows as a source yields their tokens, those of every row on its own line, and nothing is wrong with
the characters.
-/

namespace Blueprint.Printed

open Blueprint.Text

/-- A character between double quotes. -/
def escaped (c : Char) : List Char :=
  if c = '\\' then ['\\', '\\']
  else if c = '"' then ['\\', '"']
  else if c = '\n' then ['\\', 'n']
  else [c]

/-- A text between double quotes. -/
def quoted (value : String) : List Char := '"' :: (value.toList.flatMap escaped ++ ['"'])

/-- What is printed as one token. -/
inductive Atom where
  /-- A word that is not reserved. -/
  | name (identifier : String)
  /-- A reserved word. -/
  | word (keyword : Keyword)
  /-- A sign. -/
  | sign (s : Sign)
  /-- A text. -/
  | text (value : String)
  deriving DecidableEq, Repr

namespace Atom

/-- The characters that are printed. -/
def characters : Atom → List Char
  | .name identifier => identifier.toList
  | .word keyword => keyword.spelling.toList
  | .sign s => s.spelling.toList
  | .text value => quoted value

/-- The segment as which the characters are read. -/
def segment : Atom → Segment
  | .name identifier => .lexeme .identifier identifier.toList
  | .word keyword => .lexeme (.keyword keyword) keyword.spelling.toList
  | .sign s => .lexeme (.sign s) s.spelling.toList
  | .text value => .literal ⟨quoted value, Text.ofString value, []⟩

/-- The token as which the characters are read. -/
def token (position : Position) : Atom → Token
  | .name identifier => ⟨.identifier, identifier, position, .absent⟩
  | .word keyword => ⟨.keyword keyword, keyword.spelling, position, .absent⟩
  | .sign s => ⟨.sign s, s.spelling, position, .absent⟩
  | .text value =>
    ⟨.string, String.ofList (quoted value), position, .text (Text.ofString value)⟩

end Atom

/-- The characters of a row. -/
def rowText : List Atom → List Char
  | [] => ['\n']
  | [last] => last.characters ++ ['\n']
  | atom :: next :: rest => atom.characters ++ ' ' :: rowText (next :: rest)

/-- The source of rows. -/
def source (rows : List (List Atom)) : String := String.ofList (rows.flatMap rowText)

/-! ## Words -/

/-- A text that is read as one word of a kind, whatever follows that does not continue a word. -/
structure IsWord (kind : Kind) (text : List Char) : Prop where
  /-- The text has a first character, which starts a word, and further ones, which continue it. -/
  shape : ∃ c rest, text = c :: rest ∧ Segment.Ordinary c ∧ c.isDigit = false ∧
    startsWord c = true ∧ ∀ other ∈ rest, continuesWord other = true
  /-- The word is of the kind. -/
  kind_eq : Segment.wordKind text = kind

/-- A text that is read alone as an identifier, and does not start with an exclamation mark. -/
structure IsIdentifier (text : String) : Prop where
  /-- The text is one segment, an identifier. -/
  reads : Segment.ofText text.toList = [.lexeme .identifier text.toList]
  /-- It is no directive. -/
  head_ne : text.toList.head? ≠ some '!'

/-- A number is no identifier. -/
theorem number_ne_identifier (first : Char) (rest text : List Char) :
    Segment.number first rest ≠ .lexeme .identifier text := by
  unfold Segment.number
  dsimp only
  split
  · split <;> intro h <;> cases h
  · intro h
    cases h

/-- An identifier is a word. -/
theorem IsIdentifier.isWord {text : String} (h : IsIdentifier text) :
    IsWord .identifier text.toList := by
  obtain ⟨hr, hn⟩ := h
  cases ht : text.toList with
  | nil =>
    rw [ht, Segment.ofText] at hr
    cases hr
  | cons c rest =>
    rw [ht] at hr hn
    rw [Segment.ofText] at hr
    have hx := (List.cons.inj hr).1
    have hs := Segment.starts_next c rest
    rw [hx] at hs
    generalize he : Segment.lexeme Kind.identifier (c :: rest) = segment at hs
    cases hs with
    | directive hw => exact absurd rfl hn
    | number _ _ => exact absurd he.symm (number_ne_identifier _ _ _)
    | word ho hd hw =>
      injection he with hk hrest
      have hall : rest.takeWhile continuesWord = rest := (List.cons.inj hrest).2.symm
      refine ⟨⟨c, rest, rfl, ho, hd, hw, List.takeWhile_eq_self_iff.mp hall⟩, ?_⟩
      rw [hk, ← hrest]
    | _ => cases he

/-- A word that is not reserved is an identifier. -/
theorem IsWord.isIdentifier {text : String} (h : IsWord .identifier text.toList) :
    IsIdentifier text := by
  obtain ⟨⟨first, rest, ht, ho, hd, hw, hall⟩, hk⟩ := h
  rw [ht] at hk
  have hs : Segment.Starts first rest _ := .word ho hd hw
  rw [List.takeWhile_eq_self_iff.mpr hall, hk] at hs
  refine ⟨?_, ?_⟩
  · rw [ht, hs.ofText_eq (List.append_nil _).symm, Segment.ofText]
  · rw [ht]
    exact fun he => ho.mark.2.2.1 (Option.some.inj he)

/-- A word is read up to a character that does not continue it. -/
theorem IsWord.ofText_eq {kind : Kind} {text : List Char} (h : IsWord kind text) {c : Char}
    (hc : continuesWord c = false) (more : List Char) :
    Segment.ofText (text ++ c :: more) = .lexeme kind text :: Segment.ofText (c :: more) := by
  obtain ⟨⟨first, rest, rfl, ho, hd, hw, hall⟩, hk⟩ := h
  have ht : (rest ++ c :: more).takeWhile continuesWord = rest := by
    rw [List.takeWhile_append_of_pos hall, List.takeWhile_cons_of_neg (Bool.eq_false_iff.mp hc),
      List.append_nil]
  have hs : Segment.Starts first (rest ++ c :: more) _ := .word ho hd hw
  rw [ht, hk] at hs
  exact hs.ofText_eq rfl

/-- A word has no line feed. -/
theorem IsWord.lineFeed_notMem {kind : Kind} {text : List Char} (h : IsWord kind text) :
    '\n' ∉ text := by
  obtain ⟨⟨first, rest, rfl, _, _, hw, hall⟩, _⟩ := h
  have hl : continuesWord '\n' = false := rfl
  rintro (_ | hm)
  · rw [continuesWord_of_startsWord hw] at hl
    cases hl
  · rename_i hm
    rw [hall _ hm] at hl
    cases hl

/-! ## Texts -/

/-- Between double quotes a character is written as in any literal that ends with its line. -/
theorem escaped_eq_spelled : escaped = Literal.spelled '"' false := by
  funext c
  simp only [escaped, Literal.spelled, Bool.not_false, Bool.and_true, decide_eq_true_eq]

/-- A text between double quotes is read as the text. -/
theorem scan_quoted (value : String) {c : Char} (hc : c ≠ '"') (more : List Char) :
    Literal.scan '"' (value.toList.flatMap escaped ++ '"' :: c :: more) =
      ⟨quoted value, Text.ofString value, []⟩ := by
  have hquoted : quoted value =
      Literal.delimited '"' false (value.toList.map (Literal.spelled '"' false)).flatten := by
    rw [quoted, escaped_eq_spelled, List.flatMap_def]
    rfl
  have hmore : (c :: more).head? ≠ some '"' := fun he => hc (Option.some.inj he)
  rw [hquoted]
  refine Literal.scan_spelled (.inl rfl) (Literal.spells_ofString '"' false value)
    (fun _ => hmore) ?_
  rw [← hquoted, quoted, List.cons_append, List.append_assoc, List.singleton_append]

/-- An escaped character is no line feed. -/
theorem lineFeed_notMem_escaped (c : Char) : '\n' ∉ escaped c := by
  unfold escaped
  split
  · decide
  split
  · decide
  split
  · decide
  · rename_i hl
    exact fun hm => hl (List.mem_singleton.mp hm).symm

/-- A text between double quotes has no line feed. -/
theorem lineFeed_notMem_quoted (value : String) : '\n' ∉ quoted value := by
  unfold quoted
  intro h
  rcases List.mem_cons.mp h with h | h
  · cases h
  rcases List.mem_append.mp h with h | h
  · obtain ⟨c, _, h⟩ := List.mem_flatMap.mp h
    exact lineFeed_notMem_escaped c h
  · cases List.mem_singleton.mp h

/-! ## Atoms -/

namespace Atom

/-- What is printed is read as one token: a name is an identifier, and a reserved word a word. -/
def Readable : Atom → Prop
  | .name identifier => IsIdentifier identifier
  | .word keyword => IsWord (.keyword keyword) keyword.spelling.toList
  | .sign _ | .text _ => True

/-- The segment has the characters that are printed. -/
theorem text_segment (atom : Atom) : atom.segment.text = atom.characters := by
  cases atom <;> rfl

/-- Nothing is wrong with the segment. -/
theorem remarks_segment (atom : Atom) : atom.segment.remarks = [] := by
  cases atom <;> rfl

/-- The segment is the token. -/
theorem tokenAt_segment (atom : Atom) (position : Position) :
    atom.segment.tokenAt position = .ok (some (atom.token position)) := by
  cases atom with
  | text value => rfl
  | _ =>
    simp only [token, segment, Segment.tokenAt, String.ofList_toList]
    rfl

/-- What is printed before a blank is read as its segment. -/
theorem ofText_eq {atom : Atom} (h : atom.Readable) {c : Char} (hc : Segment.separates c = true)
    (more : List Char) :
    Segment.ofText (atom.characters ++ c :: more) =
      atom.segment :: .blank c :: Segment.ofText more := by
  have hb : Segment.ofText (c :: more) = .blank c :: Segment.ofText more :=
    (Segment.Starts.blank hc).ofText_eq rfl
  have hne : c ≠ '>' ∧ c ≠ '/' ∧ c ≠ '*' ∧ c ≠ '"' ∧ startsWord c = false ∧
      continuesWord c = false := by
    simp only [Segment.separates, Bool.or_eq_true, beq_iff_eq] at hc
    rcases hc with ((rfl | rfl) | rfl) | rfl <;> decide
  obtain ⟨harrow, hline, hblock, hquote, hstart, hword⟩ := hne
  have hhead : ∀ {other : Char}, c ≠ other → (c :: more).head? ≠ some other := by
    intro other ho he
    exact ho (Option.some.inj he)
  rw [← hb]
  cases atom with
  | name identifier => exact h.isWord.ofText_eq hword more
  | word keyword => exact IsWord.ofText_eq h hword more
  | sign s =>
    cases s with
    | arrow => exact Segment.Starts.arrow.ofText_eq rfl
    | minus => exact (Segment.Starts.minus (hhead harrow)).ofText_eq rfl
    | slash => exact (Segment.Starts.slash (hhead hline) (hhead hblock)).ofText_eq rfl
    | bang =>
      refine (Segment.Starts.bang fun first hf => ?_).ofText_eq rfl
      cases hf
      exact hstart
    | _ => exact (Segment.Starts.sign rfl).ofText_eq rfl
  | text value =>
    have hs : Segment.Starts '"' (value.toList.flatMap escaped ++ '"' :: c :: more)
        (.literal ⟨quoted value, Text.ofString value, []⟩) := by
      rw [← scan_quoted value hquote more]
      exact .literal (.inl rfl)
    have ht : quoted value ++ c :: more =
        '"' :: (value.toList.flatMap escaped ++ '"' :: c :: more) := by
      simp [quoted]
    rw [characters, ht, hs.ofText_eq (by rw [← ht]; rfl)]
    rfl

/-- What is printed has no line feed. -/
theorem lineFeed_notMem {atom : Atom} (h : atom.Readable) : '\n' ∉ atom.characters := by
  cases atom with
  | name identifier => exact h.isWord.lineFeed_notMem
  | word keyword => exact IsWord.lineFeed_notMem h
  | sign s => cases s <;> decide
  | text value => exact lineFeed_notMem_quoted value

/-- The token stands on the line of its place. -/
@[simp] theorem line_token (atom : Atom) (position : Position) :
    (atom.token position).line = position.line := by
  cases atom <;> rfl

/-- A text is printed as a token with the text as its value. -/
@[simp] theorem text_token (position : Position) (value : String) :
    ((Atom.text value).token position).text = .ofString value := rfl

end Atom

/-! ## Rows -/

/-- A token is what an atom is read as on a line. -/
def Shows (line : Int) (atom : Atom) (token : Token) : Prop :=
  ∃ position : Position, position.line = line ∧ token = atom.token position

/-- Tokens are what rows are read as from a line on, each row on its own line. -/
inductive OnRows : Int → List (List Atom) → List Token → Prop
  /-- There are no rows. -/
  | nil {line : Int} : OnRows line [] []
  /-- The first row stands on the line. -/
  | cons {line : Int} {row : List Atom} {rows : List (List Atom)} {front back : List Token}
    (h : List.Forall₂ (Shows line) row front) (hm : OnRows (line + 1) rows back) :
    OnRows line (row :: rows) (front ++ back)

/-- The segments of a row. -/
def rowSegments : List Atom → List Segment
  | [] => [.blank '\n']
  | [last] => [last.segment, .blank '\n']
  | atom :: next :: rest => atom.segment :: .blank ' ' :: rowSegments (next :: rest)

/-- A row is read as its segments. -/
theorem ofText_row {row : List Atom} (h : ∀ atom ∈ row, atom.Readable) (more : List Char) :
    Segment.ofText (rowText row ++ more) = rowSegments row ++ Segment.ofText more := by
  induction row using rowText.induct with
  | case1 => exact Segment.ofText_lineFeed more
  | case2 last =>
    have ha := h last List.mem_cons_self
    rw [rowText, rowSegments, List.append_assoc]
    exact Atom.ofText_eq ha rfl more
  | case3 atom next rest ih =>
    have ha := h atom List.mem_cons_self
    have ht := ih fun other ho => h other (List.mem_cons_of_mem _ ho)
    rw [rowText, rowSegments, List.append_assoc, List.cons_append, Atom.ofText_eq ha rfl, ht]
    rfl

/-- Nothing is wrong with the segments of a row. -/
theorem remarks_row {row : List Atom} {segment : Segment} (h : segment ∈ rowSegments row) :
    segment.remarks = [] := by
  induction row using rowText.induct with
  | case1 =>
    cases List.mem_singleton.mp h
    rfl
  | case2 last =>
    rcases List.mem_cons.mp h with rfl | h
    · exact last.remarks_segment
    · cases List.mem_singleton.mp h
      rfl
  | case3 atom next rest ih =>
    rcases List.mem_cons.mp h with rfl | h
    · exact atom.remarks_segment
    rcases List.mem_cons.mp h with rfl | h
    · rfl
    · exact ih h

/-- A text without line feeds ends on the line on which it starts. -/
theorem line_after {text : List Char} (h : '\n' ∉ text) (position : Position) :
    (position.after text).line = position.line := by
  induction text generalizing position with
  | nil => rfl
  | cons c rest ih =>
    have hc : c ≠ '\n' := fun he => h (he ▸ List.mem_cons_self)
    rw [Position.after_cons, ih (fun hm => h (List.mem_cons_of_mem _ hm)), Position.next,
      if_neg hc]

/-- The tokens of a row stand on its line, and the next row on the next line. -/
theorem tokensOf_row {row : List Atom} (h : ∀ atom ∈ row, atom.Readable) (position : Position) :
    (∃ tokens, List.Forall₂ (Shows position.line) row tokens ∧
      TokenStream.tokensOf (Segment.placed position (rowSegments row)) = .ok tokens) ∧
    (position.after ((rowSegments row).flatMap Segment.text)).line = position.line + 1 := by
  induction row using rowText.induct generalizing position with
  | case1 => exact ⟨⟨[], .nil, rfl⟩, rfl⟩
  | case2 last =>
    have hl := line_after (Atom.lineFeed_notMem (h last List.mem_cons_self)) position
    refine ⟨⟨[last.token position], .cons ⟨position, rfl, rfl⟩ .nil, ?_⟩, ?_⟩
    · rw [rowSegments, Segment.placed, TokenStream.tokensOf, last.tokenAt_segment]
      rfl
    · rw [rowSegments, List.flatMap_cons, Position.after_append, last.text_segment, ← hl]
      rfl
  | case3 atom next rest ih =>
    have hl := line_after (Atom.lineFeed_notMem (h atom List.mem_cons_self)) position
    have hb : ((position.after atom.characters).after [' ']).line = position.line := hl
    obtain ⟨⟨tokens, ht, he⟩, hn⟩ := ih (fun other ho => h other (List.mem_cons_of_mem _ ho))
      ((position.after atom.characters).after [' '])
    rw [hb] at ht hn
    refine ⟨⟨atom.token position :: tokens, .cons ⟨position, rfl, rfl⟩ ht, ?_⟩, ?_⟩
    · rw [rowSegments, Segment.placed, Segment.placed, TokenStream.tokensOf,
        TokenStream.tokensOf, atom.tokenAt_segment, atom.text_segment]
      simp only [Segment.text, he]
      rfl
    · rw [rowSegments, List.flatMap_cons, List.flatMap_cons, Position.after_append,
        Position.after_append, atom.text_segment]
      exact hn

/-- Rows that are read as a source have their tokens, and nothing is wrong with their characters. -/
theorem tokensOf_rows {rows : List (List Atom)} (h : ∀ row ∈ rows, ∀ atom ∈ row, atom.Readable)
    (position : Position) :
    ∃ tokens, OnRows position.line rows tokens ∧
      TokenStream.tokensOf (Segment.placed position (Segment.ofText (rows.flatMap rowText))) =
        .ok tokens ∧
      ∀ segment ∈ Segment.ofText (rows.flatMap rowText), segment.remarks = [] := by
  induction rows generalizing position with
  | nil =>
    rw [List.flatMap_nil, Segment.ofText]
    exact ⟨[], .nil, rfl, List.forall_mem_nil _⟩
  | cons row rows ih =>
    have hr := h row List.mem_cons_self
    obtain ⟨⟨front, hf, he⟩, hl⟩ := tokensOf_row hr position
    obtain ⟨back, hb, hm, hn⟩ := ih (fun other ho => h other (List.mem_cons_of_mem _ ho))
      (position.after ((rowSegments row).flatMap Segment.text))
    rw [hl] at hb
    rw [List.flatMap_cons, ofText_row hr]
    refine ⟨front ++ back, .cons hf hb, ?_, fun segment hs => ?_⟩
    · rw [Segment.placed_append, TokenStream.tokensOf_append, he, hm]
      rfl
    · rcases List.mem_append.mp hs with hs | hs
      · exact remarks_row hs
      · exact hn segment hs

/-- The source of rows has the tokens of the rows, the end of the input after them, and nothing is
wrong with it. -/
theorem ofString_source {rows : List (List Atom)}
    (h : ∀ row ∈ rows, ∀ atom ∈ row, atom.Readable) :
    ∃ tokens place, OnRows 1 rows tokens ∧
      TokenStream.ofString (source rows) = .ok ⟨tokens ++ [Token.finish place], []⟩ := by
  obtain ⟨tokens, ht, he, hn⟩ := tokensOf_rows h Position.start
  refine ⟨tokens, Position.start.after (rows.flatMap rowText), ht, ?_⟩
  unfold TokenStream.ofString TokenStream.ofChars source
  rw [String.toList_ofList]
  dsimp only
  rw [he]
  refine congrArg Except.ok (congrArg (TokenStream.mk _) ?_)
  refine List.flatMap_eq_nil_iff.mpr fun place hm => ?_
  have hs := hn place.2 (Segment.split_of_mem_placed hm).1
  simp only [TokenStream.diagnosticsAt, hs, List.map_nil]

end Blueprint.Printed
