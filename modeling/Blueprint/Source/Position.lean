/-!
# Positions in a source text

A position counts lines and columns from one and characters from zero. Reading one character moves a
position on; the position of any offset is what reading the text before it arrives at. Only the line
feed ends a line. The numbers are integers, because a position can also be given from outside, where
it need not be a place of any source.
-/

namespace Blueprint

/-- A place in a source text, or the numbers that claim to be one. -/
structure Position where
  /-- The number of the line, from one. -/
  line : Int
  /-- The number of the character in its line, from one. -/
  column : Int
  /-- The count of characters before the place. -/
  offset : Int
  deriving DecidableEq, Repr, Inhabited

namespace Position

/-- The place of the first character. -/
def start : Position := ⟨1, 1, 0⟩

/-- The place after a character that stands at this place. -/
def next (position : Position) (c : Char) : Position :=
  if c = '\n' then ⟨position.line + 1, 1, position.offset + 1⟩
  else ⟨position.line, position.column + 1, position.offset + 1⟩

/-- The place after a text that starts at this place. -/
def after (position : Position) (text : List Char) : Position :=
  text.foldl next position

/-- The words for a place. -/
def describe (position : Position) : String :=
  "line " ++ toString position.line ++ ", column " ++ toString position.column

/-- An offset that is not in the source. -/
structure OutOfRange where
  /-- The offset asked for. -/
  offset : Int
  /-- The count of characters in the source. -/
  length : Nat
  deriving DecidableEq, Repr

/-- The message for an offset that is not in the source. -/
def OutOfRange.message (fault : OutOfRange) : String :=
  "Offset " ++ toString fault.offset ++ " is outside the source (length " ++
    toString fault.length ++ ")"

/-- The characters of the last line of a text. -/
def lastLine (text : List Char) : List Char :=
  (text.reverse.takeWhile (· != '\n')).reverse

/-- The place of an offset: the line feeds before it are counted, and the characters after the last
of them. -/
def ofOffset (source : List Char) (offset : Nat) : Position :=
  let before := source.take offset
  ⟨before.count '\n' + 1, (lastLine before).length + 1, offset⟩

/-- The place of an offset; the end of the source is a place, anything beyond it is none. -/
def ofOffset? (source : List Char) (offset : Int) : Except OutOfRange Position :=
  if offset < 0 || decide ((source.length : Int) < offset) then
    .error ⟨offset, source.length⟩
  else .ok (ofOffset source offset.toNat)

/-- Reading nothing stays at the place. -/
@[simp] theorem after_nil (position : Position) : position.after [] = position := rfl

/-- Reading a text reads its first character first. -/
@[simp] theorem after_cons (position : Position) (c : Char) (text : List Char) :
    position.after (c :: text) = (position.next c).after text := rfl

/-- Reading two texts reads one after the other. -/
theorem after_append (position : Position) (first second : List Char) :
    position.after (first ++ second) = (position.after first).after second := by
  simp [after]

/-- Reading a text adds its length to the offset. -/
@[simp] theorem after_offset (position : Position) (text : List Char) :
    (position.after text).offset = position.offset + text.length := by
  induction text generalizing position with
  | nil => simp
  | cons c text ih =>
    rw [after_cons, ih, List.length_cons]
    unfold next
    split <;> simp <;> omega

/-- One more character extends the last line, or starts a new one. -/
theorem lastLine_concat (text : List Char) (c : Char) :
    lastLine (text ++ [c]) = if c = '\n' then [] else lastLine text ++ [c] := by
  unfold lastLine
  by_cases h : c = '\n' <;> simp [h]

/-- Reading a whole text from the start arrives at the place counted from its line feeds. -/
theorem start_after (text : List Char) :
    start.after text = ⟨text.count '\n' + 1, (lastLine text).length + 1, text.length⟩ := by
  rw [← List.reverse_reverse text]
  induction text.reverse with
  | nil => rfl
  | cons c before ih =>
    rw [List.reverse_cons, after_append, ih, after_cons, after_nil, lastLine_concat]
    unfold next
    by_cases h : c = '\n' <;> simp [h]

/-- Every offset of the source has a place. -/
theorem ofOffset?_of_le {source : List Char} {offset : Nat} (h : offset ≤ source.length) :
    ofOffset? source offset = .ok (ofOffset source offset) := by
  have hin : ¬((offset : Int) < 0 || decide ((source.length : Int) < offset)) = true := by
    simp only [Bool.or_eq_true, decide_eq_true_eq]
    omega
  rw [ofOffset?, if_neg hin, Int.toNat_natCast]

/-- Counting line feeds and reading character by character agree on every offset of the source. -/
theorem ofOffset_eq_after {source : List Char} {offset : Nat} (h : offset ≤ source.length) :
    ofOffset source offset = start.after (source.take offset) := by
  rw [start_after]
  simp [ofOffset, List.length_take, Nat.min_eq_left h]

end Position

end Blueprint
