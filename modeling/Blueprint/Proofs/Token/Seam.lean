import Blueprint.Proofs.Token.Next
import Blueprint.Proofs.Token.Slice

/-!
# A line feed starts afresh

A segment is found from its first characters and ends at the latest where the text ends. If nothing
is reported that more text could settle, a line feed after the text leaves its segments as they are:
no segment reaches across the line feed, and none is decided by what stands behind it. The segments
of the text behind the line feed are then those it has by itself, with their places moved.
-/

namespace Blueprint

open Blueprint.Text

/-- Whether a problem is reported because the text ends; more text after it could settle it. -/
def LexicalIssue.ofEnd : LexicalIssue → Bool
  | .unterminatedComment | .unterminatedString | .incompleteEscape _ _ => true
  | _ => false

/-! ## Looking ahead to a line feed -/

section Ahead

variable {accepts : Char → Bool} (text more : List Char)

/-- What stops at a line feed stops at the one after the text. -/
theorem takeWhile_seam (h : accepts '\n' = false) :
    (text ++ '\n' :: more).takeWhile accepts = text.takeWhile accepts := by
  induction text with
  | nil => rw [List.nil_append, List.takeWhile_cons_of_neg (by rw [h]; decide), List.takeWhile_nil]
  | cons c rest ih =>
    rw [List.cons_append, List.takeWhile_cons, List.takeWhile_cons, ih]

/-- What stops at a line feed leaves the line feed after the text. -/
theorem dropWhile_seam (h : accepts '\n' = false) :
    (text ++ '\n' :: more).dropWhile accepts = text.dropWhile accepts ++ '\n' :: more := by
  induction text with
  | nil => rw [List.nil_append, List.dropWhile_cons_of_neg (by rw [h]; decide)]; rfl
  | cons c rest ih =>
    rw [List.cons_append, List.dropWhile_cons, List.dropWhile_cons, ih]
    split <;> rfl

/-- A line feed after the text completes no sign. -/
theorem isPrefixOf_seam {sign : List Char} (h : '\n' ∉ sign) :
    sign.isPrefixOf (text ++ '\n' :: more) = sign.isPrefixOf text := by
  induction sign generalizing text with
  | nil => rfl
  | cons mark signs ih =>
    obtain ⟨hm, hs⟩ := not_or.mp fun ho => h (List.mem_cons.mpr ho)
    cases text with
    | nil => simp [List.isPrefixOf, Ne.symm hm]
    | cons c rest => simp only [List.cons_append, List.isPrefixOf, ih rest hs]

/-- The character that stands next is one of the text, or the line feed. -/
theorem head?_seam_ne {c : Char} (hc : c ≠ '\n') (h : text.head? ≠ some c) :
    (text ++ '\n' :: more).head? ≠ some c := by
  cases text with
  | nil => exact fun he => hc (Option.some.inj he).symm
  | cons first rest => exact h

end Ahead

/-! ## Literals -/

namespace Literal

variable {quote : Char} {triple : Bool} {c : Char} {rest more : List Char} {piece : Piece}

/-- An escape by number that has all of its digits is read the same if more text follows. -/
theorem numericEscape_seam {marker : Char} {width : Nat}
    (hi : ∀ issue, (numericEscape marker width rest).issue = some issue → issue.ofEnd = false) :
    numericEscape marker width (rest ++ more) = numericEscape marker width rest := by
  have hl : ¬ (rest.take width).length < width := by
    intro hl
    have hs := hi (.incompleteEscape marker (rest.take width))
      (by simp only [numericEscape, if_pos hl])
    cases hs
  have ht : (rest ++ more).take width = rest.take width := by
    rw [List.length_take] at hl
    exact List.take_append_of_le_length (by omega)
  simp only [numericEscape, ht]

/-- An escape after which the text goes on is read the same if more text follows. -/
theorem escape_seam (hl : (escape rest).raw.length ≤ rest.length)
    (hi : ∀ issue, (escape rest).issue = some issue → issue.ofEnd = false) :
    escape (rest ++ more) = escape rest := by
  unfold escape at hl hi
  split at hl
  · exact absurd hl (by decide)
  · rfl
  · rfl
  · rename_i digits
    exact numericEscape_seam hi
  · rename_i digits
    exact numericEscape_seam hi
  · rename_i first digits hn hr hu hx
    rw [List.cons_append]
    unfold escape
    split
    · rename_i he
      cases he
    · rename_i after he
      exact (hn (List.cons.inj he).1).elim
    · -- A carriage return at the end of the text could be the first half of a line end.
      rename_i after he
      obtain ⟨rfl, hd⟩ := List.cons.inj he
      cases digits with
      | nil => exact absurd hl (by decide)
      | cons second digits =>
        obtain ⟨rfl, _⟩ := List.cons.inj hd
        exact (hr digits rfl rfl).elim
    · rename_i after he
      exact (hu (List.cons.inj he).1).elim
    · rename_i after he
      exact (hx (List.cons.inj he).1).elim
    · rename_i other after _ _ _ _ he
      obtain ⟨rfl, _⟩ := List.cons.inj he
      rfl

/-- A line feed after the text completes no delimiter. -/
theorem delimiter_seam (hq : '\n' ≠ quote) (triple : Bool) (text more : List Char) :
    (delimiter quote triple).isPrefixOf (text ++ '\n' :: more) =
      (delimiter quote triple).isPrefixOf text := by
  refine isPrefixOf_seam text more ?_
  unfold delimiter
  split <;> simp [hq]

/-- A line feed after the text does not make a literal one between triples of quotes. -/
theorem opensTriple_seam (hq : '\n' ≠ quote) (text more : List Char) :
    opensTriple quote (text ++ '\n' :: more) = opensTriple quote text :=
  isPrefixOf_seam text more (by simp [hq])

/-- The rest of the opening delimiter stands in the text after the first quote. -/
theorem opening_le (quote : Char) (text : List Char) :
    (delimiter quote (opensTriple quote text)).length - 1 ≤ text.length := by
  cases ht : opensTriple quote text with
  | false => exact Nat.zero_le _
  | true => exact (List.isPrefixOf_iff_prefix.mp ht).length_le

/-- What stands next in a literal is read the same if a line feed and more text follow, unless it is
a part that reaches the end of the text. -/
theorem next_seam (hq : '\n' ≠ quote)
    (h : ∀ piece, next quote triple c rest = .inl piece → piece.raw.length ≤ rest.length ∧
      ∀ issue, piece.issue = some issue → issue.ofEnd = false) :
    next quote triple c (rest ++ '\n' :: more) = next quote triple c rest := by
  have hd := delimiter_seam hq triple (c :: rest) more
  rw [List.cons_append] at hd
  unfold next at h ⊢
  rw [hd]
  split
  · rfl
  · rename_i hc
    split
    · rfl
    · rename_i hn
      split
      · rename_i he
        obtain ⟨hl, hi⟩ := h (escape rest) (by rw [if_neg hc, if_neg hn, if_pos he])
        rw [escape_seam hl hi]
      · rfl

/-- The parts of a literal that does not end with the text are read the same if a line feed and more
text follow. -/
theorem parts_seam {text : List Char} (hq : '\n' ≠ quote)
    (he : (parts quote triple text).2 ≠ .sourceEnd)
    (hi : ∀ piece ∈ (parts quote triple text).1, ∀ issue, piece.issue = some issue →
      issue.ofEnd = false) :
    parts quote triple (text ++ '\n' :: more) = parts quote triple text := by
  induction text using parts.induct quote triple with
  | case1 =>
    rw [parts] at he
    exact absurd rfl he
  | case2 c rest ending h =>
    have hn : next quote triple c (rest ++ '\n' :: more) = .inr ending := by
      rw [next_seam hq, h]
      intro piece hp
      rw [h] at hp
      cases hp
    rw [parts_of_ending h, List.cons_append, parts_of_ending hn]
  | case3 c rest piece h ih =>
    rw [parts_of_piece h] at he hi
    have hl : piece.raw.length ≤ rest.length := by
      by_contra hn
      have hd : (c :: rest).drop piece.raw.length = [] :=
        List.drop_eq_nil_of_le (by rw [List.length_cons]; omega)
      rw [hd, parts] at he
      exact he rfl
    have hn : next quote triple c (rest ++ '\n' :: more) = .inl piece := by
      rw [next_seam hq, h]
      intro other ho
      rw [h] at ho
      cases ho
      exact ⟨hl, hi piece List.mem_cons_self⟩
    have hd : (c :: (rest ++ '\n' :: more)).drop piece.raw.length =
        (c :: rest).drop piece.raw.length ++ '\n' :: more := by
      rw [← List.cons_append, List.drop_append_of_le_length (by rw [List.length_cons]; omega)]
    rw [List.cons_append, parts_of_piece hn, parts_of_piece h, hd,
      ih he fun other ho => hi other (List.mem_cons_of_mem _ ho)]

/-- Every problem of a part is reported. -/
theorem exists_partRemark {pieces : List Piece} {distance : Nat} {issue : LexicalIssue}
    (hp : piece ∈ pieces) (hi : piece.issue = some issue) :
    ∃ place, ⟨place, issue⟩ ∈ partRemarks distance pieces := by
  induction pieces generalizing distance with
  | nil => cases hp
  | cons first others ih =>
    rw [partRemarks]
    rcases List.mem_cons.mp hp with rfl | hp
    · exact ⟨distance, List.mem_append_left _ (by rw [hi]; exact List.mem_singleton_self _)⟩
    · obtain ⟨place, hm⟩ := ih hp
      exact ⟨place, List.mem_append_right _ hm⟩

/-- A literal without a problem that more text could settle is read the same if a line feed and more
text follow. -/
theorem scan_seam (hq : '\n' ≠ quote)
    (h : ∀ remark ∈ (scan quote rest).remarks, remark.issue.ofEnd = false) :
    scan quote (rest ++ '\n' :: more) = scan quote rest := by
  unfold scan at h ⊢
  dsimp only at h ⊢
  rw [opensTriple_seam hq, List.drop_append_of_le_length (opening_le quote rest), parts_seam hq]
  · intro he
    rw [he] at h
    cases h ⟨0, .unterminatedString⟩ (List.mem_append_right _ (List.mem_singleton_self _))
  · intro piece hp issue hi
    obtain ⟨place, hm⟩ := exists_partRemark hp hi
    exact h _ (List.mem_append_left _ hm)

end Literal

/-! ## Segments -/

namespace Segment

/-- A comment that is closed is read the same if more text follows. -/
theorem commentBody_append {depth : Nat} {text : List Char} (more : List Char)
    (h : (commentBody depth text).2 = true) :
    commentBody depth (text ++ more) = commentBody depth text := by
  induction depth, text using commentBody.induct with
  | case1 => cases h
  | case2 depth rest body closed hb ih =>
    rw [commentBody] at h ⊢
    rw [List.cons_append, List.cons_append, commentBody, ih h]
  | case3 rest => rfl
  | case4 depth rest body closed hb ih =>
    rw [commentBody] at h ⊢
    rw [List.cons_append, List.cons_append, commentBody, ih h]
  | case5 depth c rest ho hz hs body closed hb ih =>
    have hne : rest ≠ [] := by
      rintro rfl
      rw [commentBody] at h
      · cases h
      all_goals assumption
    obtain ⟨second, others, rfl⟩ := List.exists_cons_of_ne_nil hne
    rw [commentBody] at h ⊢
    · rw [List.cons_append, commentBody, ih h]
      · intro after hc ha
        obtain ⟨rfl, _⟩ := List.cons.inj ha
        exact ho others hc rfl
      · intro after hd hc ha
        obtain ⟨rfl, _⟩ := List.cons.inj ha
        exact hz others hd hc rfl
      · intro before after hd hc ha
        obtain ⟨rfl, _⟩ := List.cons.inj ha
        exact hs before others hd hc rfl
    all_goals assumption

/-- A number is read the same if a line feed and more text follow. -/
theorem number_seam (first : Char) (rest more : List Char) :
    number first (rest ++ '\n' :: more) = number first rest := by
  have hd : Char.isDigit '\n' = false := by decide
  unfold number
  rw [takeWhile_seam rest more hd, dropWhile_seam rest more hd]
  rcases rest.dropWhile Char.isDigit with _ | ⟨point, _ | ⟨digit, others⟩⟩
  · rfl
  · by_cases hp : point = '.'
    · subst hp
      rfl
    · simp [hp]
  · rw [List.cons_append, List.cons_append]
    by_cases hp : point = '.'
    · subst hp
      simp only [takeWhile_seam others more hd]
    · simp [hp]

/-- A text in which nothing is reported that more text could settle. -/
def Complete (source : List Char) : Prop :=
  ∀ segment ∈ ofText source, ∀ remark ∈ segment.remarks, remark.issue.ofEnd = false

/-- A segment without a problem that more text could settle is read the same if a line feed and more
text follow. -/
theorem next_seam {c : Char} {rest : List Char} (more : List Char)
    (h : ∀ remark ∈ (next c rest).remarks, remark.issue.ofEnd = false) :
    next c (rest ++ '\n' :: more) = next c rest := by
  have hw : continuesWord '\n' = false := by decide
  have hs := starts_next c rest
  revert h hs
  generalize next c rest = segment
  intro h hs
  cases hs with
  | sign hs => exact (Starts.sign hs).next_eq
  | blank hb => exact (Starts.blank hb).next_eq
  | arrow => exact Starts.arrow.next_eq
  | minus ha => exact (Starts.minus (head?_seam_ne rest more (by decide) ha)).next_eq
  | @lineComment body =>
    have ht : (body ++ '\n' :: more).takeWhile (· != '\n') = body.takeWhile (· != '\n') :=
      takeWhile_seam body more (by decide)
    rw [← ht]
    exact Starts.lineComment.next_eq
  | @blockComment body =>
    have hc : (commentBody 0 body).2 = true := by
      rw [← Bool.not_eq_false]
      intro hc
      rw [hc] at h
      cases h ⟨0, .unterminatedComment⟩ (List.mem_singleton_self _)
    rw [← commentBody_append ('\n' :: more) hc]
    exact Starts.blockComment.next_eq
  | slash hl hb =>
    exact (Starts.slash (head?_seam_ne rest more (by decide) hl)
      (head?_seam_ne rest more (by decide) hb)).next_eq
  | @directive first others hf =>
    rw [← takeWhile_seam (first :: others) more hw]
    exact (Starts.directive hf).next_eq
  | bang hf =>
    refine (Starts.bang fun first hh => ?_).next_eq
    cases rest with
    | nil =>
      cases hh
      decide
    | cons other others => exact hf first hh
  | literal hq =>
    have hn : '\n' ≠ c := by rcases hq with rfl | rfl <;> decide
    have hs : Literal.scan c (rest ++ '\n' :: more) = Literal.scan c rest :=
      Literal.scan_seam hn h
    rw [← hs]
    exact (Starts.literal hq).next_eq
  | number ho hd =>
    rw [← number_seam c rest more]
    exact (Starts.number ho hd).next_eq
  | word ho hd hf =>
    rw [← takeWhile_seam rest more hw]
    exact (Starts.word ho hd hf).next_eq
  | unexpected ho hd hf => exact (Starts.unexpected ho hd hf).next_eq

/-- A line feed between two texts, of which the first is complete, is a segment between their
segments. -/
theorem ofText_seam {first : List Char} (second : List Char) (h : Complete first) :
    ofText (first ++ '\n' :: second) = ofText first ++ .blank '\n' :: ofText second := by
  unfold Complete at h
  induction first using ofText.induct with
  | case1 =>
    rw [List.nil_append, ofText_lineFeed, ofText]
    rfl
  | case2 c rest segment ih =>
    rw [ofText] at h
    have hn : next c (rest ++ '\n' :: second) = next c rest :=
      next_seam second (h _ List.mem_cons_self)
    have hl : (next c rest).text.length ≤ (c :: rest).length :=
      (text_next_isPrefix c rest).length_le
    rw [List.cons_append, ofText, hn, ofText, ← List.cons_append,
      List.drop_append_of_le_length hl, ih fun other ho => h other (List.mem_cons_of_mem _ ho)]
    rfl

end Segment

end Blueprint
