import Blueprint.Text.CodePoint

/-!
# Blank characters, trimming and cutting text

The blank characters are those with the bidirectional class WS, B or S or the category Zs: the
ASCII controls U+0009 to U+000D and U+001C to U+001F, the space, U+0085, and the spaces of other
scripts.
-/

namespace Blueprint.Text

/-- The blank characters. -/
def blankRanges : CodeRanges := [
  (0x0009, 0x000D), (0x001C, 0x0020), (0x0085, 0x0085), (0x00A0, 0x00A0), (0x1680, 0x1680),
  (0x2000, 0x200A), (0x2028, 0x2029), (0x202F, 0x202F), (0x205F, 0x205F), (0x3000, 0x3000)]

/-- A blank character. -/
def isBlank (c : Char) : Bool :=
  blankRanges.contains c.toNat

/-- The text without the blanks at its two ends. -/
def trim (text : List Char) : List Char :=
  ((text.dropWhile isBlank).reverse.dropWhile isBlank).reverse

/-- The text without any of its blanks. -/
def withoutBlanks (text : List Char) : List Char :=
  text.filter fun c => !isBlank c

/-- The pieces between the occurrences of a separator; there is always one more than there are
occurrences. -/
def splitOn (separator : Char) : List Char → List (List Char)
  | [] => [[]]
  | c :: rest =>
    if c = separator then [] :: splitOn separator rest
    else match splitOn separator rest with
      | [] => [[c]]
      | piece :: pieces => (c :: piece) :: pieces

/-- The pieces are those of the list of characters. -/
theorem splitOn_eq (separator : Char) (text : List Char) :
    splitOn separator text = text.splitOn separator := by
  induction text with
  | nil => exact (List.splitOn_nil separator).symm
  | cons c rest ih =>
    rw [List.splitOn_cons_eq_if_modifyHead, splitOn, ih]
    simp only [beq_iff_eq]
    split
    · rfl
    · split
      · next hp => exact absurd hp (List.splitOn_ne_nil separator rest)
      · next piece pieces hp => rw [hp, List.modifyHead_cons]

/-- There is at least one piece. -/
theorem splitOn_ne_nil (separator : Char) (text : List Char) : splitOn separator text ≠ [] :=
  splitOn_eq separator text ▸ List.splitOn_ne_nil separator text

/-- The pieces have no separators. -/
theorem separator_notMem_of_mem_splitOn {separator : Char} {text piece : List Char}
    (h : piece ∈ splitOn separator text) : separator ∉ piece := by
  induction text generalizing piece with
  | nil =>
    rw [splitOn, List.mem_singleton] at h
    exact h ▸ List.not_mem_nil
  | cons c rest ih =>
    rw [splitOn] at h
    split at h
    · rcases List.mem_cons.mp h with rfl | h
      · exact List.not_mem_nil
      · exact ih h
    · rename_i hc
      have hne : separator ≠ c := fun he => hc he.symm
      split at h
      · rw [List.mem_singleton.mp h]
        exact List.not_mem_cons_of_ne_of_not_mem hne List.not_mem_nil
      · rename_i first others hs
        rw [hs] at ih
        rcases List.mem_cons.mp h with rfl | h
        · exact List.not_mem_cons_of_ne_of_not_mem hne (ih List.mem_cons_self)
        · exact ih (List.mem_cons_of_mem _ h)

/-- The entries of a comma-separated list: trimmed, and left out when nothing remains. -/
def listEntries (text : String) : List String :=
  (splitOn ',' text.toList).filterMap fun piece =>
    match trim piece with
    | [] => none
    | entry => some (String.ofList entry)

end Blueprint.Text
