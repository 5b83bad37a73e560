import Blueprint.Text.CodePoint
import Blueprint.Text.Printable

/-!
# Quoted text in messages

A piece of source text is quoted in messages so that it stays on one line and its ends can be seen:
between single quotes, or between double quotes if it holds a single quote and no double quote. The
backslash, the chosen quote and all characters that are not printable are escaped.
-/

namespace Blueprint.Text.Quoted

/-- The quote that a text is put in. -/
def quoteFor (text : Text) : Char :=
  if text.contains (.character '\'') && !text.contains (.character '"') then '"' else '\''

/-- A code that cannot be shown, by its number in two, four or eight digits. -/
def numbered (code : Nat) : List Char :=
  if code < 0x100 then '\\' :: 'x' :: CodePoint.hexDigits 2 code
  else if code < 0x10000 then '\\' :: 'u' :: CodePoint.hexDigits 4 code
  else '\\' :: 'U' :: CodePoint.hexDigits 8 code

/-- One code point between the given quotes. -/
def escaped (quote : Char) : CodePoint → List Char
  | .surrogate distance => numbered (0xD800 + distance.val)
  | .character c =>
    if c = quote || c = '\\' then ['\\', c]
    else if c = '\n' then ['\\', 'n']
    else if c = '\r' then ['\\', 'r']
    else if c = '\t' then ['\\', 't']
    else if isPrintable c then [c]
    else numbered c.toNat

/-- A code that cannot be shown is written on one line. -/
theorem not_mem_numbered (code : Nat) : '\n' ∉ numbered code := by
  unfold numbered
  repeat' split
  all_goals simp [CodePoint.not_mem_hexDigits]

/-- A code point between quotes is written on one line. -/
theorem not_mem_escaped {quote : Char} (hq : quote ≠ '\n') (point : CodePoint) :
    '\n' ∉ escaped quote point := by
  cases point with
  | surrogate distance => exact not_mem_numbered _
  | character c =>
    simp only [escaped]
    split
    · rename_i hc
      obtain rfl | rfl : c = quote ∨ c = '\\' := by simpa using hc
      · simp [hq.symm]
      · decide
    split
    · decide
    rename_i hn
    repeat' split
    · decide
    · decide
    · simp [Ne.symm hn]
    · exact not_mem_numbered _

/-- A text in quotes. -/
def ofPoints (text : Text) : String :=
  let quote := quoteFor text
  String.ofList (quote :: text.flatMap (escaped quote) ++ [quote])

/-- A text in quotes is written on one line. -/
theorem not_mem_ofPoints (text : Text) : '\n' ∉ (ofPoints text).toList := by
  have hq : quoteFor text ≠ '\n' := by
    unfold quoteFor
    split <;> decide
  simp [ofPoints, hq.symm, not_mem_escaped hq]

/-- A text without surrogates in quotes. -/
def ofString (text : String) : String :=
  ofPoints (Text.ofString text)

/-- Octets in quotes, after the letter that tells them from text; those that are no ASCII are
escaped. -/
def ofBytes (bytes : List UInt8) : String :=
  let points := bytes.map fun byte => CodePoint.ofNat byte.toNat
  let quote := quoteFor points
  let shown := fun byte : UInt8 =>
    if byte < 128 then escaped quote (.ofNat byte.toNat) else numbered byte.toNat
  String.ofList ('b' :: quote :: bytes.flatMap shown ++ [quote])

/-- A single character in quotes. -/
def ofChar (c : Char) : String :=
  ofPoints [.character c]

end Blueprint.Text.Quoted
