import Blueprint.Proofs.Token.Layout

/-!
# Sources that are cut between tokens

A source may be cut where blanks and comments stand between two tokens, or nothing does. Its tokens
are then those of the text before the cut and those of the text behind it, and they stand on lines
that do not go up. Texts with a line feed between them are cut there, and a text can be written on
lines of its own at any cut: what stands behind is displaced, and nothing else changes.
-/

namespace Blueprint

open Blueprint.Text

variable {before gap behind first second text : List Char} {position : Position}
  {stream : TokenStream} {tokens front back : List Token}

/-! ## Sources that are cut -/

namespace Segment

/-- A source is cut into a text, blanks and comments, and another text: each of the three is read as
it stands alone. -/
structure Cut (before gap behind : List Char) : Prop where
  /-- The source has the segments of the three texts. -/
  segments : ofText (before ++ gap ++ behind) = ofText before ++ ofText gap ++ ofText behind
  /-- There is no token between the two texts. -/
  blank : ∀ segment ∈ ofText gap, segment.isToken = false

/-- Texts with a line feed between them, of which the first is complete, are cut there. -/
theorem cut_line (h : Complete first) (second : List Char) : Cut first ['\n'] second := by
  have hline : ofText ['\n'] = [.blank '\n'] := by
    rw [ofText_lineFeed, ofText]
  refine ⟨?_, ?_⟩
  · rw [hline, List.append_assoc, List.append_assoc]
    exact ofText_seam second h
  · rw [hline]
    intro segment hm
    rw [List.mem_singleton.mp hm]
    rfl

/-- If a source is faultless, so is what stands before a cut. -/
theorem Cut.faultless_before (h : Cut before gap behind)
    (hf : Faultless (before ++ gap ++ behind)) : Faultless before := by
  intro segment hs
  refine hf segment ?_
  rw [h.segments]
  exact List.mem_append_left _ (List.mem_append_left _ hs)

/-- If a source is faultless, so is what stands behind a cut. -/
theorem Cut.faultless_behind (h : Cut before gap behind)
    (hf : Faultless (before ++ gap ++ behind)) : Faultless behind := by
  intro segment hs
  refine hf segment ?_
  rw [h.segments]
  exact List.mem_append_right _ hs

/-- Two faultless texts with a line feed between them are faultless. -/
theorem Faultless.line (h : Faultless first) (hs : Faultless second) :
    Faultless (first ++ '\n' :: second) := by
  intro segment hm remark hr
  rw [ofText_seam second h.complete] at hm
  rcases List.mem_append.mp hm with hm | hm
  · exact h segment hm remark hr
  · rcases List.mem_cons.mp hm with rfl | hm
    · cases hr
    · exact hs segment hm remark hr

end Segment

/-- What makes no compilation fail is no error. -/
theorem Diagnostic.severity_ne_of_isError {diagnostic : Diagnostic}
    (h : diagnostic.isError = false) : diagnostic.severity ≠ .error := by
  intro he
  rw [Diagnostic.isError, he] at h
  cases h

/-- A line feed leads to the next line. -/
theorem Position.line_lt_after (position : Position) (text : List Char) :
    (position.after text).line < (position.after (text ++ ['\n'])).line := by
  rw [after_append]
  simp only [after_cons, after_nil, next, if_pos]
  exact Int.lt_succ _

namespace TokenStream

/-- About a faultless source no error is reported. -/
theorem isError_of_faultless (h : ofChars first = .ok stream) (hf : Segment.Faultless first) :
    ∀ diagnostic ∈ stream.diagnostics, diagnostic.isError = false := by
  obtain ⟨tokens, _, rfl⟩ := ofChars_eq_ok_iff.mp h
  intro diagnostic hm
  obtain ⟨⟨place, segment⟩, hp, hd⟩ := List.mem_flatMap.mp hm
  obtain ⟨remark, hr, rfl⟩ := List.mem_map.mp hd
  have hw := hf segment (Segment.split_of_mem_placed hp).1 remark hr
  simp [Diagnostic.of, Diagnostic.isError, Issue.severity, hw, Severity.isError]

/-- The tokens of a source before its last one are those of its segments. -/
theorem tokensOf_of_ofChars {last : Token} (h : ofChars first = .ok stream)
    (ht : stream.tokens = tokens ++ [last]) :
    tokensOf (Segment.placed Position.start (Segment.ofText first)) = .ok tokens := by
  obtain ⟨whole, hw, rfl⟩ := ofChars_eq_ok_iff.mp h
  obtain ⟨rfl, _⟩ := List.append_inj' ht rfl
  exact hw

/-- The tokens of a source that is cut are those of the two texts. -/
theorem tokensOf_cut (h : Segment.Cut before gap behind) (position : Position) :
    tokensOf (Segment.placed position (Segment.ofText (before ++ gap ++ behind))) =
      (tokensOf (Segment.placed position (Segment.ofText before))).bind fun tokens =>
        (tokensOf (Segment.placed (position.after (before ++ gap)) (Segment.ofText behind))).map
          (tokens ++ ·) := by
  rw [h.segments, List.append_assoc, Segment.placed_append, Segment.placed_append, tokensOf_append,
    tokensOf_append, tokensOf_eq_nil h.blank, Segment.flatMap_text_ofText,
    Segment.flatMap_text_ofText, Position.after_append]
  cases tokensOf (Segment.placed ((position.after before).after gap) (Segment.ofText behind)) <;>
    rfl

/-- Tokens stand on lines that do not go up. -/
theorem pairwise_lines {segments : List Segment}
    (h : tokensOf (Segment.placed position segments) = .ok tokens) :
    tokens.Pairwise fun first second => first.line ≤ second.line := by
  induction segments generalizing position tokens with
  | nil =>
    cases h
    exact .nil
  | cons segment rest ih =>
    rw [Segment.placed, tokensOf] at h
    cases ht : segment.tokenAt position with
    | error fault =>
      rw [ht] at h
      cases h
    | ok token =>
      cases hr : tokensOf (Segment.placed (position.after segment.text) rest) with
      | error fault =>
        rw [ht, hr] at h
        cases h
      | ok more =>
        rw [ht, hr] at h
        cases h
        cases token with
        | none => exact ih hr
        | some token =>
          refine List.pairwise_cons.mpr ⟨fun other hm => ?_, ih hr⟩
          have hplace := (Segment.place_of_tokenAt ht).1
          have habove := (within_of_tokensOf hr other hm).above
          rw [Token.line, hplace]
          exact Int.le_trans (Position.line_le_after _ _) habove

/-- The tokens of a source stand on lines that do not go up. -/
theorem pairwise_lines_of_ofChars (h : ofChars first = .ok stream) :
    stream.tokens.Pairwise fun token other => token.line ≤ other.line := by
  obtain ⟨tokens, ht, rfl⟩ := ofChars_eq_ok_iff.mp h
  refine List.pairwise_append.mpr ⟨pairwise_lines ht, List.pairwise_singleton _ _, ?_⟩
  intro token hm other ho
  rw [List.mem_singleton.mp ho]
  exact (within_of_ofText ht token (List.mem_append_left _ hm)).below

/-- Where a token stands below the one before it, it and all behind it stand below all before it. -/
theorem lines_lt_of_pairwise
    (h : (front ++ back).Pairwise fun token other => token.line ≤ other.line)
    (hl : ∀ token ∈ front.getLast?, ∀ next ∈ back.head?, token.line < next.line) :
    ∀ token ∈ front, ∀ other ∈ back, token.line < other.line := by
  obtain ⟨hfront, hback, _⟩ := List.pairwise_append.mp h
  intro token ht other ho
  obtain ⟨next, rest, rfl⟩ := List.exists_cons_of_ne_nil (List.ne_nil_of_mem ho)
  obtain ⟨init, last, rfl⟩ := List.eq_nil_or_concat' front |>.resolve_left (List.ne_nil_of_mem ht)
  have hnext := hl last (by simp) next (by simp)
  have hbefore : token.line ≤ last.line := by
    rcases List.mem_append.mp ht with ht | ht
    · exact (List.pairwise_append.mp hfront).2.2 token ht last (List.mem_singleton_self _)
    · exact Int.le_of_eq (congrArg Token.line (List.mem_singleton.mp ht))
  have hbehind : next.line ≤ other.line := by
    rcases List.mem_cons.mp ho with rfl | ho
    · exact Int.le_refl _
    · exact (List.pairwise_cons.mp hback).1 other ho
  omega

/-- The tokens of a source that is cut are those before the cut, and those behind it with the end of
the input. -/
theorem exists_behind (h : Segment.Cut before gap behind)
    (hs : ofChars (before ++ gap ++ behind) = .ok stream)
    (hf : tokensOf (Segment.placed Position.start (Segment.ofText before)) = .ok front) :
    ∃ back, tokensOf (Segment.placed (Position.start.after (before ++ gap))
        (Segment.ofText behind)) = .ok back ∧
      stream.tokens =
        front ++ (back ++ [.finish ((Position.start.after (before ++ gap)).after behind)]) := by
  obtain ⟨whole, hwhole, rfl⟩ := ofChars_eq_ok_iff.mp hs
  rw [tokensOf_cut h, hf] at hwhole
  rw [Position.after_append _ (before ++ gap)]
  cases hb : tokensOf (Segment.placed (Position.start.after (before ++ gap))
      (Segment.ofText behind)) with
  | error fault =>
    rw [hb] at hwhole
    cases hwhole
  | ok back =>
    rw [hb] at hwhole
    cases hwhole
    exact ⟨back, rfl, List.append_assoc _ _ _⟩

/-- The tokens of a text behind a line feed are those it has alone, moved. -/
theorem tokensOf_behind_line
    (h : tokensOf (Segment.placed Position.start (Segment.ofText text)) = .ok tokens)
    (before : List Char) :
    tokensOf (Segment.placed (Position.start.after (before ++ ['\n'])) (Segment.ofText text)) =
      .ok (tokens.map (Token.shift (before.count '\n' + 1) (before.length + 1))) := by
  rw [Position.start_after_line, Segment.placed_shift, tokensOf_shift, h]
  rfl

/-- The tokens of a text stand above those behind it and a line feed. -/
theorem lines_lt_of_line
    (hf : tokensOf (Segment.placed position (Segment.ofText first)) = .ok front)
    (hs : tokensOf (Segment.placed (position.after (first ++ ['\n'])) (Segment.ofText second)) =
      .ok back) :
    ∀ token ∈ front, ∀ other ∈
      back ++ [.finish ((position.after (first ++ ['\n'])).after second)],
      token.line < other.line := by
  intro token ht other ho
  have hbelow := (within_of_ofText hf token (List.mem_append_left _ ht)).below
  have habove := (within_of_ofText hs other ho).above
  have hline := Position.line_lt_after position first
  omega

/-- At a cut a text is written on lines of its own: its tokens stand below those before it and above
those behind it, and these are displaced. -/
theorem exists_written (hc : Segment.Cut before gap behind)
    (hs : ofChars (before ++ gap ++ behind) = .ok stream) (hb : Segment.Complete before)
    (ht : Segment.Complete text)
    (hfront : tokensOf (Segment.placed Position.start (Segment.ofText before)) = .ok front)
    (htext : tokensOf (Segment.placed Position.start (Segment.ofText text)) = .ok tokens) :
    ∃ back, stream.tokens = front ++ back ∧ ∃ twin others lines characters,
      ofChars (before ++ ['\n'] ++ (text ++ ['\n'] ++ behind)) = .ok twin ∧
      twin.tokens = front ++ (tokens.map
        (Token.shift (before.count '\n' + 1) (before.length + 1)) ++ others) ∧
      List.Forall₂ (Token.Displaced lines characters) back others ∧
      ∀ token ∈ tokens.map (Token.shift (before.count '\n' + 1) (before.length + 1)),
        (∀ other ∈ front, other.line < token.line) ∧ ∀ other ∈ others, token.line < other.line := by
  obtain ⟨back, hback, hstream⟩ := exists_behind hc hs hfront
  obtain ⟨others, hothers, hdisplaced⟩ := exists_displaced (Position.displaced _
    ((Position.start.after (before ++ ['\n'])).after (text ++ ['\n']))) hback
  have hshifted := tokensOf_behind_line htext before
  have htwin : tokensOf (Segment.placed Position.start
      (Segment.ofText (before ++ ['\n'] ++ (text ++ ['\n'] ++ behind)))) =
      .ok (front ++ (tokens.map (Token.shift (before.count '\n' + 1) (before.length + 1)) ++
        others)) := by
    rw [tokensOf_cut (Segment.cut_line hb _), hfront, tokensOf_cut (Segment.cut_line ht _),
      hshifted, hothers]
    rfl
  refine ⟨_, hstream, _, _, _, _, ofChars_eq_ok_iff.mpr ⟨_, htwin, rfl⟩, ?_, hdisplaced, ?_⟩
  · simp only [Position.after_append, List.append_assoc]
  · intro token hm
    exact ⟨fun other ho => lines_lt_of_line hfront hshifted other ho token
      (List.mem_append_left _ hm), lines_lt_of_line hshifted hothers token hm⟩

end TokenStream

end Blueprint
