import Blueprint.Proofs.Token.Fresh

/-!
# Comments and literals that are closed in a text

Behind a text there is a line feed, and then text with no quote and no slash, which closes neither a
comment nor a literal. If nothing is wrong with the characters of the two together, nothing is wrong
with those of the text: it has the segments then that it has by itself, for each comment and each
literal in it is closed in it.
-/

namespace Blueprint

open Blueprint.Text

/-! ## Literals -/

namespace Literal

variable {quote c : Char} {triple : Bool} {rest more text : List Char} {piece : Piece}
  {closing : List Char}

/-- An escape by number with which nothing is wrong has its digits before the line feed. -/
theorem numericEscape_of_line {marker : Char} {width : Nat}
    (h : (numericEscape marker width (rest ++ '\n' :: more)).issue = none) :
    numericEscape marker width rest = numericEscape marker width (rest ++ '\n' :: more) := by
  by_cases hl : rest.length < width
  · have hm : '\n' ∈ (rest ++ '\n' :: more).take width := by
      obtain ⟨count, rfl⟩ := Nat.exists_eq_add_of_lt hl
      rw [Nat.add_assoc, List.take_length_add_append]
      exact List.mem_append_right _ List.mem_cons_self
    unfold numericEscape at h
    dsimp only at h
    rw [hexNumber?_of_mem hm] at h
    split at h <;> cases h
  · have ht : (rest ++ '\n' :: more).take width = rest.take width :=
      List.take_append_of_le_length (Nat.le_of_not_lt hl)
    simp only [numericEscape, ht]

/-- An escape before the line feed with which nothing is wrong is read the same without it. -/
theorem escape_of_line (h : (escape (rest ++ '\n' :: more)).issue = none)
    (hl : (escape (rest ++ '\n' :: more)).raw.length ≤ rest.length + 1) :
    escape rest = escape (rest ++ '\n' :: more) := by
  rcases rest with _ | ⟨first, rest⟩
  · exact absurd hl (by simp [escape])
  · by_cases hu : first = 'u'
    · rw [hu] at h ⊢
      exact numericEscape_of_line h
    by_cases hx : first = 'x'
    · rw [hx] at h ⊢
      exact numericEscape_of_line h
    by_cases hr : first = '\r'
    · subst hr
      rcases rest with _ | ⟨second, rest⟩
      · exact absurd hl (by simp [escape])
      · by_cases hs : second = '\n' <;> simp [escape, hs]
    · by_cases hn : first = '\n'
      · rw [hn]
        rfl
      · simp [escape, hr]

/-- What stands next in a literal is read the same without the line feed, unless it is a part with
which something is wrong, or that reaches over the line feed. -/
theorem next_of_line (hq : '\n' ≠ quote)
    (h : ∀ piece, next quote triple c (rest ++ '\n' :: more) = .inl piece →
      piece.issue = none ∧ piece.raw.length ≤ rest.length + 1) :
    next quote triple c rest = next quote triple c (rest ++ '\n' :: more) := by
  have hd := delimiter_seam hq triple (c :: rest) more
  rw [List.cons_append] at hd
  unfold next at h ⊢
  rw [hd] at h ⊢
  split
  · rfl
  · rename_i hc
    split
    · rfl
    · rename_i hn
      split
      · rename_i he
        obtain ⟨hi, hl⟩ := h _ (by rw [if_neg hc, if_neg hn, if_pos he])
        rw [escape_of_line hi hl]
      · rfl

/-- A literal is closed by a quote. -/
theorem quote_mem (h : (parts quote triple text).2 = .closed closing) : quote ∈ text := by
  induction text using parts.induct quote triple with
  | case1 =>
    rw [parts] at h
    cases h
  | case2 c rest ending hn =>
    rw [parts_of_ending hn] at h
    obtain rfl : ending = .closed closing := h
    unfold next at hn
    split at hn
    · rename_i hc
      exact hc ▸ List.mem_cons_self
    · repeat' split at hn
      all_goals cases hn
  | case3 c rest piece hn ih =>
    rw [parts_of_piece hn] at h
    exact List.mem_of_mem_drop (ih h)

/-- Without text behind it that has no quote, a literal that is closed has the same parts, if
nothing is wrong with them. -/
theorem parts_of_line (hq : '\n' ≠ quote) (hm : quote ∉ more)
    (h : (parts quote triple (text ++ '\n' :: more)).2 = .closed closing)
    (hi : ∀ piece ∈ (parts quote triple (text ++ '\n' :: more)).1, piece.issue = none) :
    parts quote triple text = parts quote triple (text ++ '\n' :: more) := by
  have hmore : quote ∉ '\n' :: more := by simp [hm, hq.symm]
  have hempty : ∀ {source : List Char}, [] ++ '\n' :: more = source →
      (parts quote triple source).2 = .closed closing → quote ∈ '\n' :: more := by
    rintro _ rfl
    exact quote_mem
  generalize hs : text ++ '\n' :: more = source at h hi ⊢
  induction source using parts.induct quote triple generalizing text with
  | case1 => exact absurd (congrArg List.length hs) (by simp)
  | case2 c rest ending hn =>
    rcases text with _ | ⟨first, text⟩
    · exact absurd (hempty hs h) hmore
    rw [List.cons_append] at hs
    obtain ⟨rfl, rfl⟩ := List.cons.inj hs
    have hsame := next_of_line hq fun piece hp => absurd (hn.symm.trans hp) Sum.inr_ne_inl
    rw [parts_of_ending hn, parts_of_ending (hsame.trans hn)]
  | case3 c rest piece hn ih =>
    rcases text with _ | ⟨first, text⟩
    · exact absurd (hempty hs h) hmore
    rw [List.cons_append] at hs
    obtain ⟨rfl, rfl⟩ := List.cons.inj hs
    rw [parts_of_piece hn] at h hi ⊢
    have hp : piece.raw.length ≤ (first :: text).length := by
      -- A part that reaches over the line feed leaves no quote to close the literal.
      by_contra hl
      have hmem := quote_mem h
      rw [← List.cons_append, List.drop_append, List.drop_eq_nil_of_le (by omega)] at hmem
      exact hmore (List.mem_of_mem_drop hmem)
    have hdrop : (first :: text).drop piece.raw.length ++ '\n' :: more =
        (first :: (text ++ '\n' :: more)).drop piece.raw.length := by
      rw [← List.cons_append, List.drop_append_of_le_length hp]
    have hsame : next quote triple first text = next quote triple first (text ++ '\n' :: more) := by
      refine next_of_line hq fun other ho => ?_
      obtain rfl := Sum.inl.inj (hn.symm.trans ho)
      exact ⟨hi piece List.mem_cons_self, hp⟩
    rw [parts_of_piece (hsame.trans hn),
      ih hdrop h fun other ho => hi other (List.mem_cons_of_mem _ ho)]

/-- A literal with which nothing is wrong is read the same without text behind it that has no
quote. -/
theorem scan_of_line (hq : '\n' ≠ quote) (hm : quote ∉ more)
    (h : (scan quote (rest ++ '\n' :: more)).remarks = []) :
    scan quote rest = scan quote (rest ++ '\n' :: more) := by
  unfold scan at h ⊢
  dsimp only at h ⊢
  rw [opensTriple_seam hq, List.drop_append_of_le_length (opening_le quote rest)] at h ⊢
  obtain ⟨hparts, hending⟩ := List.append_eq_nil_iff.mp h
  have hclosed : ∃ closing, (parts quote (opensTriple quote rest)
      (rest.drop ((delimiter quote (opensTriple quote rest)).length - 1) ++ '\n' :: more)).2 =
        .closed closing := by
    generalize (parts quote _ _).2 = ending at hending
    cases ending with
    | closed closing => exact ⟨closing, rfl⟩
    | lineEnd => cases hending
    | sourceEnd => cases hending
  obtain ⟨closing, hc⟩ := hclosed
  rw [parts_of_line hq hm hc]
  intro piece hp
  cases hi : piece.issue with
  | none => rfl
  | some issue =>
    obtain ⟨place, hm⟩ := exists_partRemark hp hi
    rw [hparts] at hm
    cases hm

end Literal

/-! ## Segments -/

namespace Segment

variable {c : Char} {rest more first second : List Char}

/-- A comment is closed by a slash. -/
theorem exists_slash {depth : Nat} {text : List Char} (h : (commentBody depth text).2 = true) :
    ∃ body, (commentBody depth text).1 = body ++ ['/'] := by
  induction depth, text using commentBody.induct with
  | case1 => cases h
  | case2 depth rest body closed hb ih =>
    rw [commentBody] at h ⊢
    obtain ⟨body, he⟩ := ih h
    exact ⟨'/' :: '*' :: body, congrArg (fun text => '/' :: '*' :: text) he⟩
  | case3 rest => exact ⟨['*'], rfl⟩
  | case4 depth rest body closed hb ih =>
    rw [commentBody] at h ⊢
    obtain ⟨body, he⟩ := ih h
    exact ⟨'*' :: '/' :: body, congrArg (fun text => '*' :: '/' :: text) he⟩
  | case5 depth c rest ho hz hs body closed hb ih =>
    rw [commentBody] at h ⊢
    · obtain ⟨body, he⟩ := ih h
      exact ⟨c :: body, congrArg (c :: ·) he⟩
    all_goals assumption

/-- A comment that is closed before text without a slash is closed without it. -/
theorem commentBody_closed {depth : Nat} {text : List Char} (hm : '/' ∉ more)
    (h : (commentBody depth (text ++ '\n' :: more)).2 = true) :
    (commentBody depth text).2 = true := by
  by_contra ho
  have hl := commentBody_open more (Bool.eq_false_iff.mpr ho)
  obtain ⟨body, hb⟩ := exists_slash h
  have hp := commentBody_isPrefix depth (text ++ '\n' :: more)
  rw [hb] at hp hl
  obtain ⟨behind, hbehind⟩ := hp
  rw [List.length_append, List.length_singleton] at hl
  have hmem : '/' ∈ (text ++ '\n' :: more).drop text.length := by
    rw [← hbehind, List.append_assoc, List.drop_append_of_le_length (by omega)]
    exact List.mem_append_right _ List.mem_cons_self
  rw [List.drop_left] at hmem
  rcases List.mem_cons.mp hmem with he | hmem
  · exact absurd he (by decide)
  · exact hm hmem

/-- Text that closes no comment and no literal. -/
def ClosesNothing (text : List Char) : Prop := '/' ∉ text ∧ '"' ∉ text ∧ '\'' ∉ text

/-- A segment with which nothing is wrong is read the same without text behind it that closes
nothing. -/
theorem next_of_line (hm : ClosesNothing more)
    (h : (next c (rest ++ '\n' :: more)).remarks = []) :
    next c rest = next c (rest ++ '\n' :: more) := by
  by_cases hr : ∀ remark ∈ (next c rest).remarks, remark.issue.ofEnd = false
  · exact (next_seam more hr).symm
  · -- What more text could settle is wrong with comments and literals only.
    have hs := starts_next c rest
    generalize next c rest = segment at hr hs
    cases hs with
    | @blockComment body =>
      have hm' := @Starts.blockComment (body ++ '\n' :: more)
      rw [List.cons_append, hm'.next_eq] at h
      cases hc : (commentBody 0 (body ++ '\n' :: more)).2 with
      | true =>
        rw [commentBody_closed hm.1 hc] at hr
        exact absurd (fun remark hm => absurd hm List.not_mem_nil) hr
      | false =>
        rw [hc] at h
        cases h
    | literal hq =>
      have hn : '\n' ≠ c := by rcases hq with rfl | rfl <;> decide
      have hquote : c ∉ more := by
        rcases hq with rfl | rfl
        · exact hm.2.1
        · exact hm.2.2
      rw [(Starts.literal hq).next_eq] at h ⊢
      rw [Literal.scan_of_line hn hquote h]
    | number ho hd =>
      obtain ⟨kind, text, hk⟩ := exists_number c rest
      rw [hk] at hr
      exact absurd (fun remark hm => absurd hm List.not_mem_nil) hr
    | unexpected =>
      refine absurd (fun remark hm => ?_) hr
      cases List.mem_singleton.mp hm
      rfl
    | _ => exact absurd (fun remark hm => absurd hm List.not_mem_nil) hr

/-- If nothing is wrong with the segments of a text and of text behind it that closes nothing, then
nothing is wrong with those of the text. -/
theorem remarks_of_line (hs : ClosesNothing second)
    (h : ∀ segment ∈ ofText (first ++ '\n' :: second), segment.remarks = []) :
    ∀ segment ∈ ofText first, segment.remarks = [] := by
  induction first using ofText.induct with
  | case1 =>
    rw [ofText]
    exact fun segment hm => absurd hm List.not_mem_nil
  | case2 c rest segment ih =>
    rw [List.cons_append, ofText] at h
    have hn : next c rest = next c (rest ++ '\n' :: second) :=
      next_of_line hs (h _ List.mem_cons_self)
    have hl : (next c rest).text.length ≤ (c :: rest).length :=
      (text_next_isPrefix c rest).length_le
    rw [← hn, ← List.cons_append, List.drop_append_of_le_length hl] at h
    rw [ofText]
    intro other ho
    rcases List.mem_cons.mp ho with rfl | ho
    · exact h _ List.mem_cons_self
    · exact ih (fun other ho => h other (List.mem_cons_of_mem _ ho)) other ho

end Segment

namespace TokenStream

/-- Nothing is reported about the characters of a text if nothing is wrong with its segments. -/
theorem diagnostics_eq_nil_iff {source : List Char} {stream : TokenStream}
    (h : ofChars source = .ok stream) :
    stream.diagnostics = [] ↔ ∀ segment ∈ Segment.ofText source, segment.remarks = [] := by
  obtain ⟨tokens, _, rfl⟩ := ofChars_eq_ok_iff.mp h
  rw [List.flatMap_eq_nil_iff]
  constructor
  · intro hn segment hm
    obtain ⟨place, hp⟩ := Segment.exists_mem_placed hm Position.start
    exact List.map_eq_nil_iff.mp (hn _ hp)
  · intro hn place hp
    exact List.map_eq_nil_iff.mpr (hn _ (Segment.split_of_mem_placed hp).1)

/-- If nothing is reported about the characters of a text and of text behind it that closes nothing,
then nothing is reported about those of the text. -/
theorem diagnostics_of_line {first second : String} {stream whole : TokenStream}
    (hs : Segment.ClosesNothing second.toList) (h : ofString first = .ok stream)
    (hw : ofString (first ++ "\n" ++ second) = .ok whole) (hn : whole.diagnostics = []) :
    stream.diagnostics = [] := by
  have hchars : (first ++ "\n" ++ second).toList = first.toList ++ '\n' :: second.toList := by
    rw [String.toList_append, String.toList_append, List.append_assoc]
    rfl
  have hsegments := (diagnostics_eq_nil_iff hw).mp hn
  rw [hchars] at hsegments
  exact (diagnostics_eq_nil_iff h).mpr (Segment.remarks_of_line hs hsegments)

end TokenStream

end Blueprint
