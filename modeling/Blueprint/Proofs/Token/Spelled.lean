import Mathlib.Algebra.Group.Nat.Defs
import Blueprint.Proofs.Token.Slice

/-!
# Texts as string literals

Every text can be written as a string literal, between quotes of either kind, once or three times: a
backslash and the quote behind a backslash, a line feed by its short escape where it would end the
line of the literal, and every other character as itself. Any code point of up to four digits to the
base sixteen can be written by its number instead, and a surrogate has to be. What is written in
this way is read as one token with the text as its value, and nothing is reported.
-/

namespace Blueprint

open Blueprint.Text

/-- A code point is the one that its number stands for. -/
theorem Text.CodePoint.ofNat_toNat (point : CodePoint) : CodePoint.ofNat point.toNat = point := by
  unfold CodePoint.ofNat
  cases point with
  | character c =>
    have hv : ¬ (0xD800 ≤ c.toNat ∧ c.toNat < 0xE000) := by
      have hvalid : c.toNat < 0xD800 ∨ 0xDFFF < c.toNat ∧ c.toNat < 0x110000 := c.valid
      omega
    rw [CodePoint.toNat, dif_neg hv, Char.ofNat_toNat]
  | surrogate distance =>
    have hv : 0xD800 ≤ 0xD800 + distance.val ∧ 0xD800 + distance.val < 0xE000 :=
      ⟨Nat.le_add_right _ _, Nat.add_lt_add_left distance.isLt 0xD800⟩
    rw [CodePoint.toNat, dif_pos hv]
    exact congrArg CodePoint.surrogate (Fin.ext (Nat.add_sub_cancel_left ..))

namespace Literal

/-! ## Digits to the base sixteen -/

/-- A digit to the base sixteen is written in a small letter or in a capital. -/
def IsDigit (written small : Char) : Prop := written = small ∨ written = small.toUpper

/-- A number is written in a count of digits to the base sixteen, each in a small letter or in a
capital. -/
def IsNumeral (width code : Nat) (digits : List Char) : Prop :=
  List.Forall₂ IsDigit digits (CodePoint.hexDigits width code)

/-- A digit has its value in a small letter and in a capital. -/
theorem hexValue?_of_isDigit {written : Char} {value : Nat} (hv : value < 16)
    (h : IsDigit written (CodePoint.hexDigit value)) : hexValue? written = some value := by
  have hboth : ∀ value < 16, hexValue? (CodePoint.hexDigit value) = some value ∧
      hexValue? (CodePoint.hexDigit value).toUpper = some value := by decide
  rcases h with rfl | rfl
  · exact (hboth value hv).1
  · exact (hboth value hv).2

/-- The last digit of a number counts once, and the digits before it sixteen times. -/
theorem hexNumber?_concat (front : List Char) (last : Char) :
    hexNumber? (front ++ [last]) =
      (hexNumber? front).bind fun value => (hexValue? last).map (value * 16 + ·) := by
  unfold hexNumber?
  rw [List.foldl_append, List.foldl_cons, List.foldl_nil]
  generalize List.foldl _ _ front = value
  cases value with
  | none => rfl
  | some value => cases hexValue? last <;> rfl

/-- The digits of a number are read as the number. -/
theorem hexNumber?_of_isNumeral {width code : Nat} {digits : List Char}
    (hc : code < 16 ^ width) (h : IsNumeral width code digits) :
    hexNumber? digits = some code := by
  induction width generalizing code digits with
  | zero =>
    obtain rfl : digits = [] := List.forall₂_nil_right_iff.mp h
    obtain rfl : code = 0 := Nat.lt_one_iff.mp hc
    rfl
  | succ width ih =>
    rw [IsNumeral, CodePoint.hexDigits] at h
    have hfront := List.forall₂_take_append _ _ _ h
    have hlast := List.forall₂_drop_append _ _ _ h
    obtain ⟨last, rest, hd, hrest, hdrop⟩ := List.forall₂_cons_right_iff.mp hlast
    obtain rfl := List.forall₂_nil_right_iff.mp hrest
    have hless : code / 16 < 16 ^ width := Nat.div_lt_of_lt_mul (by rwa [← Nat.pow_succ'])
    rw [← List.take_append_drop (CodePoint.hexDigits width (code / 16)).length digits, hdrop,
      hexNumber?_concat, ih hless hfront,
      hexValue?_of_isDigit (Nat.mod_lt code (by decide)) hd, Option.bind_some, Option.map_some]
    exact congrArg some (Nat.div_add_mod' code 16)

/-! ## Ways to write a code point -/

/-- A code point is written in a literal between quotes of one kind, once or three times. -/
inductive Spells (quote : Char) (triple : Bool) : CodePoint → List Char → Prop where
  /-- A character that has no meaning in the literal stands for itself. -/
  | plain {c : Char} (hb : c ≠ '\\') (hq : c ≠ quote) (hl : c = '\n' → triple = true) :
    Spells quote triple (.character c) [c]
  /-- A backslash is written twice. -/
  | backslash : Spells quote triple (.character '\\') ['\\', '\\']
  /-- The quote is written behind a backslash. -/
  | quote : Spells quote triple (.character quote) ['\\', quote]
  /-- A line feed has a short escape. -/
  | lineFeed : Spells quote triple (.character '\n') ['\\', 'n']
  /-- Four digits are enough for the code points up to U+FFFF. -/
  | fourDigits {point : CodePoint} {digits : List Char} (hp : point.toNat ≤ 0xFFFF)
    (hd : IsNumeral 4 point.toNat digits) : Spells quote triple point ('\\' :: 'u' :: digits)
  /-- Two digits are enough for the code points up to U+00FF. -/
  | twoDigits {point : CodePoint} {digits : List Char} (hp : point.toNat ≤ 0xFF)
    (hd : IsNumeral 2 point.toNat digits) : Spells quote triple point ('\\' :: 'x' :: digits)

/-- A character as it is written in a literal: behind a backslash if it has a meaning there. -/
def spelled (quote : Char) (triple : Bool) (c : Char) : List Char :=
  if c = '\\' then ['\\', '\\']
  else if c = quote then ['\\', quote]
  else if c = '\n' && !triple then ['\\', 'n']
  else [c]

/-- This is one of the ways to write the character. -/
theorem spells_spelled (quote : Char) (triple : Bool) (c : Char) :
    Spells quote triple (.character c) (spelled quote triple c) := by
  unfold spelled
  split
  · rename_i hb
    subst hb
    exact .backslash
  · rename_i hb
    split
    · rename_i hq
      subst hq
      exact .quote
    · rename_i hq
      split
      · rename_i hl
        obtain ⟨rfl, -⟩ : c = '\n' ∧ triple = false := by simpa using hl
        exact .lineFeed
      · rename_i hl
        exact .plain hb hq fun hc => by simpa [hc] using hl

/-- The characters of a text are written in this way one after the other. -/
theorem spells_ofString (quote : Char) (triple : Bool) (text : String) :
    List.Forall₂ (Spells quote triple) (Text.ofString text)
      (text.toList.map (spelled quote triple)) := by
  rw [Text.ofString, List.forall₂_map_left_iff, List.forall₂_map_right_iff]
  exact List.forall₂_same.mpr fun c _ => spells_spelled quote triple c

/-- The digits of a number are a numeral of it. -/
theorem isNumeral_hexDigits (width code : Nat) :
    IsNumeral width code (CodePoint.hexDigits width code) :=
  List.forall₂_same.mpr fun _ _ => .inl rfl

/-- There is a way to write every code point. -/
theorem exists_spells (quote : Char) (triple : Bool) (point : CodePoint) :
    ∃ raw, Spells quote triple point raw := by
  cases point with
  | character c => exact ⟨_, spells_spelled quote triple c⟩
  | surrogate distance =>
    have hp : (CodePoint.surrogate distance).toNat ≤ 0xFFFF := by
      rw [CodePoint.toNat]
      omega
    exact ⟨_, .fourDigits hp (isNumeral_hexDigits _ _)⟩

/-- There is a way to write every text. -/
theorem exists_spelling (quote : Char) (triple : Bool) (points : Text) :
    ∃ raws, List.Forall₂ (Spells quote triple) points raws := by
  induction points with
  | nil => exact ⟨[], .nil⟩
  | cons point rest ih =>
    obtain ⟨raw, hr⟩ := exists_spells quote triple point
    obtain ⟨raws, hrs⟩ := ih
    exact ⟨raw :: raws, .cons hr hrs⟩

/-! ## Reading what is written -/

variable {quote : Char} {triple : Bool} {point : CodePoint} {points : Text}
  {raw more : List Char} {raws : List (List Char)}

/-- An escape by a number in digits stands for the code point of the number. -/
theorem numericEscape_of_isNumeral (marker : Char) {width : Nat} {digits : List Char}
    (hp : point.toNat < 16 ^ width) (hd : IsNumeral width point.toNat digits) (more : List Char) :
    numericEscape marker width (digits ++ more) = ⟨'\\' :: marker :: digits, [point], none⟩ := by
  have hlength : digits.length = width := by
    rw [hd.length_eq, CodePoint.hexDigits_length]
  have htake : (digits ++ more).take width = digits := by
    rw [← hlength, List.take_left]
  unfold numericEscape
  dsimp only
  rw [htake, if_neg (by omega), hexNumber?_of_isNumeral hp hd]
  dsimp only
  rw [CodePoint.ofNat_toNat]

/-- What stands for a code point does not start with the quote, and is read as the code point,
whatever stands behind it. -/
theorem Spells.next_eq (hq : quote = '"' ∨ quote = '\'') (h : Spells quote triple point raw) :
    ∃ first rest, raw = first :: rest ∧ first ≠ quote ∧
      ∀ more, next quote triple first (rest ++ more) = .inl ⟨raw, [point], none⟩ := by
  have hslash : '\\' ≠ quote := by rcases hq with rfl | rfl <;> decide
  have hescape : ∀ rest, (∀ more, escape (rest ++ more) = ⟨'\\' :: rest, [point], none⟩) →
      ∀ more, next quote triple '\\' (rest ++ more) = .inl ⟨'\\' :: rest, [point], none⟩ := by
    intro rest he more
    have hline : ¬ ('\\' = '\n' && !triple) = true := fun hc => absurd hc (by simp)
    rw [next, if_neg hslash, if_neg hline, if_pos rfl, he]
  cases h with
  | @plain c hb hn hl =>
    refine ⟨c, [], rfl, hn, fun more => ?_⟩
    have hline : ¬ (c = '\n' && !triple) = true := by simpa using hl
    rw [next, if_neg hn, if_neg hline, if_neg hb]
    rfl
  | backslash => exact ⟨_, _, rfl, hslash, hescape _ fun _ => rfl⟩
  | quote =>
    refine ⟨_, _, rfl, hslash, hescape _ fun _ => ?_⟩
    rcases hq with rfl | rfl <;> rfl
  | lineFeed => exact ⟨_, _, rfl, hslash, hescape _ fun _ => rfl⟩
  | fourDigits hp hd =>
    exact ⟨_, _, rfl, hslash, hescape _
      fun more => numericEscape_of_isNumeral 'u' (Nat.lt_succ_of_le hp) hd more⟩
  | twoDigits hp hd =>
    exact ⟨_, _, rfl, hslash, hescape _
      fun more => numericEscape_of_isNumeral 'x' (Nat.lt_succ_of_le hp) hd more⟩

/-- The closing delimiter ends a literal. -/
theorem parts_closing (quote : Char) (triple : Bool) (more : List Char) :
    parts quote triple (delimiter quote triple ++ more) =
      ([], .closed (delimiter quote triple)) := by
  have hd : (delimiter quote triple).isPrefixOf (delimiter quote triple ++ more) = true :=
    List.isPrefixOf_iff_prefix.mpr (List.prefix_append _ _)
  obtain ⟨rest, hr⟩ : ∃ rest, delimiter quote triple = quote :: rest := by
    unfold delimiter
    split <;> exact ⟨_, rfl⟩
  have hnext : next quote triple quote (rest ++ more) =
      .inr (.closed (delimiter quote triple)) := by
    rw [next, if_pos rfl, ← List.cons_append, ← hr, if_pos hd]
  rw [hr, List.cons_append, parts_of_ending hnext, hr]

/-- Before the closing delimiter, the parts of a literal stand for what is written. -/
theorem exists_parts (hq : quote = '"' ∨ quote = '\'')
    (h : List.Forall₂ (Spells quote triple) points raws) (more : List Char) :
    ∃ pieces, parts quote triple (raws.flatten ++ (delimiter quote triple ++ more)) =
        (pieces, .closed (delimiter quote triple)) ∧
      pieces.flatMap Piece.raw = raws.flatten ∧ pieces.flatMap Piece.content = points ∧
      ∀ piece ∈ pieces, piece.issue = none := by
  induction h with
  | nil => exact ⟨[], parts_closing quote triple more, rfl, rfl, nofun⟩
  | @cons point raw points raws hs _ ih =>
    obtain ⟨pieces, hparts, hraw, hcontent, hissue⟩ := ih
    obtain ⟨first, rest, hf, -, hnext⟩ := hs.next_eq hq
    refine ⟨⟨raw, [point], none⟩ :: pieces, ?_, ?_, ?_, List.forall_mem_cons.mpr ⟨rfl, hissue⟩⟩
    · have hpiece := hnext (raws.flatten ++ (delimiter quote triple ++ more))
      rw [List.flatten_cons, List.append_assoc, hf, List.cons_append,
        parts_of_piece (hf ▸ hpiece)]
      dsimp only
      rw [← List.cons_append, List.drop_left, hparts]
    · rw [List.flatMap_cons, hraw, List.flatten_cons]
    · rw [List.flatMap_cons, hcontent, List.singleton_append]

/-- Nothing is reported about parts with which nothing is wrong. -/
theorem partRemarks_eq_nil {pieces : List Piece} (h : ∀ piece ∈ pieces, piece.issue = none)
    (distance : Nat) : partRemarks distance pieces = [] := by
  induction pieces generalizing distance with
  | nil => rfl
  | cons piece more ih =>
    obtain ⟨hp, hm⟩ := List.forall_mem_cons.mp h
    rw [partRemarks, ih hm, hp]
    rfl

/-- A text between delimiters. -/
def delimited (quote : Char) (triple : Bool) (body : List Char) : List Char :=
  delimiter quote triple ++ body ++ delimiter quote triple

/-- A text between single delimiters does not open a literal between triple ones, unless it is empty
and a further quote stands behind it. -/
theorem opensTriple_spelled (hq : quote = '"' ∨ quote = '\'')
    (h : List.Forall₂ (Spells quote false) points raws) (hm : more.head? ≠ some quote) :
    opensTriple quote (raws.flatten ++ quote :: more) = false := by
  cases h with
  | nil =>
    cases more with
    | nil => simp [opensTriple, List.isPrefixOf]
    | cons c more =>
      have hc : quote ≠ c := fun he => hm (by rw [he]; rfl)
      simp [opensTriple, List.isPrefixOf, hc]
  | cons hs _ =>
    obtain ⟨first, rest, rfl, hf, -⟩ := hs.next_eq hq
    simp [opensTriple, List.isPrefixOf, hf.symm]

/-- What is written between delimiters is read as the text, if between single ones no further quote
stands behind it. -/
theorem scan_spelled (hq : quote = '"' ∨ quote = '\'')
    (h : List.Forall₂ (Spells quote triple) points raws)
    (hm : triple = false → more.head? ≠ some quote) {rest : List Char}
    (hr : quote :: rest = delimited quote triple raws.flatten ++ more) :
    scan quote rest = ⟨delimited quote triple raws.flatten, points, []⟩ := by
  have hbehind : opensTriple quote rest = triple ∧
      rest.drop ((delimiter quote triple).length - 1) =
        raws.flatten ++ (delimiter quote triple ++ more) := by
    cases triple with
    | false =>
      obtain rfl : rest = raws.flatten ++ quote :: more := by
        simpa [delimited, delimiter] using hr
      exact ⟨opensTriple_spelled hq h (hm rfl), rfl⟩
    | true =>
      obtain rfl : rest = quote :: quote :: (raws.flatten ++ quote :: quote :: quote :: more) := by
        simpa [delimited, delimiter] using hr
      exact ⟨by simp [opensTriple, List.isPrefixOf], rfl⟩
  obtain ⟨pieces, hparts, hraw, hcontent, hissue⟩ := exists_parts hq h more
  unfold scan
  simp only [hbehind.1, hbehind.2, hparts, hraw, hcontent, partRemarks_eq_nil hissue]
  rfl

end Literal

namespace TokenStream

/-- The tokens of a source that is one string literal: the literal, and the end of the input. -/
def ofLiteral (source : List Char) (points : Text) : TokenStream :=
  { tokens := [⟨.string, String.ofList source, Position.start, .text points⟩,
      .finish (Position.start.after source)]
    diagnostics := [] }

/-- A source that is one literal has its token and no other. -/
theorem ofChars_literal {quote : Char} {rest : List Char} {points : Text}
    (hq : quote = '"' ∨ quote = '\'')
    (h : Literal.scan quote rest = ⟨quote :: rest, points, []⟩) :
    ofChars (quote :: rest) = .ok (ofLiteral (quote :: rest) points) := by
  have hs : Segment.Starts quote rest (.literal ⟨quote :: rest, points, []⟩) := h ▸ .literal hq
  have hsegments := hs.ofText_eq (List.append_nil _).symm
  rw [Segment.ofText] at hsegments
  refine ofChars_eq_ok_iff.mpr
    ⟨[⟨.string, String.ofList (quote :: rest), Position.start, .text points⟩], ?_, ?_⟩ <;>
  · rw [hsegments]
    rfl

/-- Whatever text is written in a literal, between quotes of either kind, once or three times, and
with each of its code points in any of the ways to write it: the literal is read as one token with
the text, and nothing is reported. There is a way to write every text, and one without numbers if
the text has no surrogates. -/
theorem ofString_spelled {quote : Char} (hq : quote = '"' ∨ quote = '\'') (triple : Bool) :
    (∀ text : String,
      let source := Literal.delimited quote triple
        (text.toList.flatMap (Literal.spelled quote triple))
      ofString (String.ofList source) = .ok (ofLiteral source (Text.ofString text))) ∧
    (∀ points : Text,
      (∃ raws, List.Forall₂ (Literal.Spells quote triple) points raws) ∧
      ∀ raws, List.Forall₂ (Literal.Spells quote triple) points raws →
        let source := Literal.delimited quote triple raws.flatten
        ofString (String.ofList source) = .ok (ofLiteral source points)) := by
  have hall : ∀ points raws, List.Forall₂ (Literal.Spells quote triple) points raws →
      ofString (String.ofList (Literal.delimited quote triple raws.flatten)) =
        .ok (ofLiteral (Literal.delimited quote triple raws.flatten) points) := by
    intro points raws h
    obtain ⟨rest, hr⟩ : ∃ rest, Literal.delimited quote triple raws.flatten = quote :: rest := by
      cases triple <;> exact ⟨_, rfl⟩
    have hend : triple = false → ([] : List Char).head? ≠ some quote := nofun
    have hscan := Literal.scan_spelled hq h hend (by rw [hr, List.append_nil])
    rw [hr] at hscan
    rw [ofString, String.toList_ofList, hr, ofChars_literal hq hscan]
  refine ⟨fun text => ?_, fun points => ⟨Literal.exists_spelling quote triple points, hall points⟩⟩
  have h := hall _ _ (Literal.spells_ofString quote triple text)
  rwa [← List.flatMap_def] at h

/-- A literal between triple quotes, with a quote, a line feed, a backslash and a surrogate by their
numbers in letters of both kinds, and a character beyond the four digits. -/
theorem ofString_spelled_mixed :
    ('\'' = '"' ∨ '\'' = '\'') ∧
    List.Forall₂ (Literal.Spells '\'' true)
      [.character '\'', .character '\n', .character '\\', .surrogate 0x3D, .character '😀']
      [['\\', '\''], ['\n'], ['\\', 'x', '5', 'C'], ['\\', 'u', 'D', '8', '3', 'd'], ['😀']] ∧
    ofString "'''\\'\n\\x5C\\uD83d😀'''" = .ok
      { tokens :=
          [⟨.string, "'''\\'\n\\x5C\\uD83d😀'''", Position.start, .text [.character '\'',
            .character '\n', .character '\\', .surrogate 0x3D, .character '😀']⟩,
            .finish ⟨2, 15, 20⟩]
        diagnostics := [] } := by
  have hslash : Literal.IsNumeral 2 0x5C ['5', 'C'] := .cons (.inl rfl) (.cons (.inr rfl) .nil)
  have hhigh : Literal.IsNumeral 4 0xD83D ['D', '8', '3', 'd'] :=
    .cons (.inr rfl) (.cons (.inl rfl) (.cons (.inl rfl) (.cons (.inl rfl) .nil)))
  have hraws : List.Forall₂ (Literal.Spells '\'' true)
      [.character '\'', .character '\n', .character '\\', .surrogate 0x3D, .character '😀']
      [['\\', '\''], ['\n'], ['\\', 'x', '5', 'C'], ['\\', 'u', 'D', '8', '3', 'd'], ['😀']] :=
    .cons .quote (.cons (.plain (by decide) (by decide) (fun _ => rfl))
      (.cons (.twoDigits (by decide) hslash) (.cons (.fourDigits (by decide) hhigh)
        (.cons (.plain (by decide) (by decide) (by decide)) .nil))))
  have hread := ((@ofString_spelled '\'' (.inr rfl) true).2 _).2 _ hraws
  have htext : String.ofList (Literal.delimited '\'' true (List.flatten [['\\', '\''], ['\n'],
      ['\\', 'x', '5', 'C'], ['\\', 'u', 'D', '8', '3', 'd'], ['😀']])) =
      "'''\\'\n\\x5C\\uD83d😀'''" := rfl
  dsimp only at hread
  rw [ofLiteral, htext] at hread
  exact ⟨.inr rfl, hraws, hread⟩

end TokenStream

end Blueprint
