/-!
# Code points

The text of a string literal may name code points that are no characters: a four-digit escape can
write one of the surrogates U+D800 to U+DFFF. Decoded text is therefore a list of code points. Where
such text is shown, a surrogate is spelled out by its number.
-/

namespace Blueprint.Text

/-- A character, or one of the 2048 surrogates. -/
inductive CodePoint where
  /-- A Unicode character. -/
  | character (c : Char)
  /-- The surrogate with the given distance from U+D800. -/
  | surrogate (distance : Fin 2048)
  deriving DecidableEq, Repr

namespace CodePoint

/-- The code point with a given number; numbers beyond the last character do not occur. -/
def ofNat (code : Nat) : CodePoint :=
  if h : 0xD800 ≤ code ∧ code < 0xE000 then
    .surrogate ⟨code - 0xD800, by omega⟩
  else .character (Char.ofNat code)

/-- The number of a code point. -/
def toNat : CodePoint → Nat
  | .character c => c.toNat
  | .surrogate distance => 0xD800 + distance.val

/-- A digit to the base sixteen, in small letters. -/
def hexDigit (value : Nat) : Char :=
  if value < 10 then Char.ofNat (48 + value) else Char.ofNat (87 + value)

/-- A number in the given count of digits to the base sixteen. -/
def hexDigits : Nat → Nat → List Char
  | 0, _ => []
  | width + 1, value => hexDigits width (value / 16) ++ [hexDigit (value % 16)]

/-- The code point as it is shown: a surrogate by its number between angle brackets. -/
def shown : CodePoint → List Char
  | .character c => [c]
  | .surrogate distance =>
    "<U+".toList ++ (hexDigits 4 (0xD800 + distance.val)).map Char.toUpper ++ ['>']

/-- A digit of the base sixteen is an ASCII letter or digit. -/
theorem hexDigits_length (width value : Nat) : (hexDigits width value).length = width := by
  induction width generalizing value with
  | zero => rfl
  | succ width ih => simp [hexDigits, ih]

/-- A digit of the base sixteen is no line feed. -/
theorem hexDigit_ne {value : Nat} (h : value < 16) : hexDigit value ≠ '\n' := by
  revert value
  decide

/-- There is no line feed among digits of the base sixteen. -/
theorem not_mem_hexDigits (width value : Nat) : '\n' ∉ hexDigits width value := by
  induction width generalizing value with
  | zero => exact List.not_mem_nil
  | succ width ih =>
    have hd := hexDigit_ne (Nat.mod_lt value (by decide : 0 < 16))
    simp [hexDigits, ih, hd.symm]

end CodePoint

end Blueprint.Text

namespace Blueprint

open Blueprint.Text

/-- Decoded text. -/
abbrev Text := List CodePoint

namespace Text

/-- The characters of a text as code points. -/
def ofString (text : String) : Text := text.toList.map .character

/-- Decoded text as it is shown. -/
def shown (text : Text) : String := String.ofList (text.flatMap CodePoint.shown)

/-- Text without surrogates is shown as itself. -/
@[simp]
theorem shown_ofString (text : String) : (ofString text).shown = text := by
  unfold shown ofString
  rw [List.flatMap_map]
  simp [CodePoint.shown]

end Text

end Blueprint

namespace Blueprint.Text

/-! ## Sets of code points

A property of the Unicode standard is kept as the ordered list of the ranges it covers. Only
membership is asked for, so the list is scanned; the first 128 code points are answered by the
modules that use the tables, without a look at them.
-/

/-- A set of code points, written as ranges with their first and last member. -/
abbrev CodeRanges := List (Nat × Nat)

/-- Whether a code lies in one of the ranges. -/
def CodeRanges.contains (ranges : CodeRanges) (code : Nat) : Bool :=
  ranges.any fun range => decide (range.1 ≤ code) && decide (code ≤ range.2)

end Blueprint.Text
