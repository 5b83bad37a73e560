import Blueprint.Proofs.Token.Fresh
import Blueprint.Proofs.Token.Lines

/-!
# Blanks and comments between tokens

Blanks and comments have no tokens and are not reported. What stands behind them is read as it
stands alone, and its tokens are displaced: each by as many lines and by as many characters. In
which column they stand also depends on the line that they share with the blanks.
-/

namespace Blueprint

open Blueprint.Text

/-! ## Blanks and comments -/

/-- A text is layout in front of another one: blanks and comments. A comment up to the end of its
line is followed by a line feed, or by the end of the source. -/
inductive Layout (behind : List Char) : List Char → Prop where
  /-- Nothing. -/
  | none : Layout behind []
  /-- A blank. -/
  | blank {c : Char} {gap : List Char} (h : Segment.separates c = true) (hg : Layout behind gap) :
    Layout behind (c :: gap)
  /-- A comment up to the end of its line. -/
  | lineComment {body gap : List Char} (hb : '\n' ∉ body)
    (he : gap ++ behind = [] ∨ (gap ++ behind).head? = some '\n') (hg : Layout behind gap) :
    Layout behind ('/' :: '/' :: (body ++ gap))
  /-- A comment between its delimiters. -/
  | blockComment {body gap : List Char} (hb : Segment.commentBody 0 body = (body, true))
    (hg : Layout behind gap) : Layout behind ('/' :: '*' :: (body ++ gap))

namespace Segment

/-- A comment up to the end of its line, in front of a line feed or the end of the source. -/
theorem Starts.lineComment_of {body text : List Char} (hb : '\n' ∉ body)
    (ht : text = [] ∨ text.head? = some '\n') :
    Starts '/' ('/' :: (body ++ text)) (.lineComment ('/' :: '/' :: body)) := by
  have hall : ∀ c ∈ body, (c != '\n') = true := fun c hc => bne_iff_ne.mpr fun hn => hb (hn ▸ hc)
  have hstop : text.takeWhile (· != '\n') = [] := by
    rcases ht with rfl | hh
    · exact List.takeWhile_nil
    · obtain ⟨more, rfl⟩ := List.head?_eq_some_iff.mp hh
      rfl
  have hbody : (body ++ text).takeWhile (· != '\n') = body := by
    rw [List.takeWhile_append_of_pos hall, hstop, List.append_nil]
  have hc := @Starts.lineComment (body ++ text)
  rw [hbody] at hc
  exact hc

/-- A comment between its delimiters. -/
theorem Starts.blockComment_of {body : List Char} (hb : commentBody 0 body = (body, true))
    (text : List Char) :
    Starts '/' ('*' :: (body ++ text)) (.blockComment ('/' :: '*' :: body) true) := by
  have hbody : commentBody 0 (body ++ text) = (body, true) := by
    rw [commentBody_append _ (by rw [hb]), hb]
  have hc := @Starts.blockComment (body ++ text)
  rw [hbody] at hc
  exact hc

/-- One more segment without a token in front of a text of such segments. -/
theorem Starts.ofText_gap {c : Char} {rest gap behind : List Char} {segment : Segment}
    {segments : List Segment} (h : Starts c rest segment)
    (hc : c :: rest = segment.text ++ (gap ++ behind)) (hn : segment.isToken = false)
    (ho : ofText (gap ++ behind) = segments ++ ofText behind)
    (hs : segments.flatMap text = gap ∧ ∀ segment ∈ segments, segment.isToken = false) :
    ofText (c :: rest) = (segment :: segments) ++ ofText behind ∧
      (segment :: segments).flatMap text = segment.text ++ gap ∧
      ∀ other ∈ segment :: segments, other.isToken = false :=
  ⟨by rw [h.ofText_eq hc, ho, List.cons_append], by rw [List.flatMap_cons, hs.1],
    List.forall_mem_cons.mpr ⟨hn, hs.2⟩⟩

/-- Layout is read as blanks and comments, and what stands behind it as it stands alone. -/
theorem ofText_layout {gap behind : List Char} (h : Layout behind gap) :
    ∃ segments, ofText (gap ++ behind) = segments ++ ofText behind ∧
      segments.flatMap text = gap ∧ ∀ segment ∈ segments, segment.isToken = false := by
  induction h with
  | none => exact ⟨[], rfl, rfl, fun _ hm => absurd hm List.not_mem_nil⟩
  | blank hc _ ih =>
    obtain ⟨segments, ho, hs⟩ := ih
    exact ⟨_, (Starts.blank hc).ofText_gap rfl rfl ho hs⟩
  | lineComment hb he _ ih =>
    obtain ⟨segments, ho, hs⟩ := ih
    rw [List.cons_append, List.cons_append, List.append_assoc]
    exact ⟨_, (Starts.lineComment_of hb he).ofText_gap rfl rfl ho hs⟩
  | blockComment hb _ ih =>
    obtain ⟨segments, ho, hs⟩ := ih
    rw [List.cons_append, List.cons_append, List.append_assoc]
    exact ⟨_, (Starts.blockComment_of hb _).ofText_gap rfl rfl ho hs⟩

end Segment

/-! ## Places that are displaced -/

/-- A place stands so many lines below another one, and so many characters behind it. -/
structure Position.Displaced (lines characters : Int) (position other : Position) : Prop where
  /-- The lines further down. -/
  line : other.line = position.line + lines
  /-- The characters further on. -/
  offset : other.offset = position.offset + characters

/-- A token is the same as another one, and its place is displaced. -/
structure Token.Displaced (lines characters : Int) (token other : Token) : Prop where
  /-- The tokens are of one kind. -/
  kind : token.kind = other.kind
  /-- The tokens are written in the same way. -/
  lexeme : token.lexeme = other.lexeme
  /-- The tokens are read in the same way. -/
  value : token.value = other.value
  /-- The place is displaced. -/
  position : token.position.Displaced lines characters other.position

/-- A token stands from one place on, and before another one. -/
structure Token.Within (first last : Position) (token : Token) : Prop where
  /-- It stands on no line above. -/
  above : first.line ≤ token.line
  /-- It stands on no line below. -/
  below : token.line ≤ last.line
  /-- It starts at the first place or behind it. -/
  start : first.offset ≤ token.position.offset
  /-- It ends at the last place or before it. -/
  stop : token.endOffset ≤ last.offset

namespace Position

variable {lines characters : Int} {position other : Position}

/-- The places after a character are displaced as those of the character are. -/
theorem Displaced.next (h : position.Displaced lines characters other) (c : Char) :
    (position.next c).Displaced lines characters (other.next c) := by
  have hl := h.line
  have ho := h.offset
  unfold Position.next
  split
  · exact ⟨by dsimp only; omega, by dsimp only; omega⟩
  · exact ⟨hl, by dsimp only; omega⟩

/-- The places after a text are displaced as those of the text are. -/
theorem Displaced.after (h : position.Displaced lines characters other) (text : List Char) :
    (position.after text).Displaced lines characters (other.after text) := by
  induction text generalizing position other with
  | nil => exact h
  | cons c rest ih => exact ih (h.next c)

/-- Every place is displaced by what lies between it and another one. -/
theorem displaced (position other : Position) :
    position.Displaced (other.line - position.line) (other.offset - position.offset) other :=
  ⟨by omega, by omega⟩

/-- A text does not lead to a line above. -/
theorem line_le_after (position : Position) (text : List Char) :
    position.line ≤ (position.after text).line := by
  induction text generalizing position with
  | nil => exact Int.le_refl _
  | cons c rest ih =>
    have hn : position.line ≤ (position.next c).line := by
      unfold next
      split
      · exact Int.le_of_lt (Int.lt_succ _)
      · exact Int.le_refl _
    rw [after_cons]
    exact Int.le_trans hn (ih _)

end Position

namespace TokenStream

variable {lines characters : Int} {position other : Position}

/-- The token of a segment at a displaced place is displaced, unless there is none or the same
number cannot be read. -/
theorem tokenAt_displaced (h : position.Displaced lines characters other) (segment : Segment) :
    (∃ fault, segment.tokenAt position = .error fault ∧ segment.tokenAt other = .error fault) ∨
    (segment.tokenAt position = .ok none ∧ segment.tokenAt other = .ok none) ∨
    ∃ token same, segment.tokenAt position = .ok (some token) ∧
      segment.tokenAt other = .ok (some same) ∧ token.Displaced lines characters same := by
  cases segment with
  | lexeme kind text =>
    simp only [Segment.tokenAt]
    cases Segment.valueOf kind text with
    | error fault => exact .inl ⟨fault, rfl, rfl⟩
    | ok value => exact .inr (.inr ⟨_, _, rfl, rfl, rfl, rfl, rfl, h⟩)
  | literal scanned => exact .inr (.inr ⟨_, _, rfl, rfl, rfl, rfl, rfl, h⟩)
  | _ => exact .inr (.inl ⟨rfl, rfl⟩)

/-- The tokens of segments at displaced places are displaced, or the same number cannot be read. -/
theorem tokensOf_displaced (h : position.Displaced lines characters other)
    (segments : List Segment) :
    (∃ fault, tokensOf (Segment.placed position segments) = .error fault ∧
      tokensOf (Segment.placed other segments) = .error fault) ∨
    ∃ tokens more, tokensOf (Segment.placed position segments) = .ok tokens ∧
      tokensOf (Segment.placed other segments) = .ok more ∧
      List.Forall₂ (Token.Displaced lines characters) tokens more := by
  induction segments generalizing position other with
  | nil => exact .inr ⟨[], [], rfl, rfl, .nil⟩
  | cons segment rest ih =>
    have hrest := ih (h.after segment.text)
    simp only [Segment.placed, tokensOf]
    rcases tokenAt_displaced h segment with
      ⟨fault, hp, ho⟩ | ⟨hp, ho⟩ | ⟨token, same, hp, ho, hd⟩ <;> rw [hp, ho]
    · exact .inl ⟨fault, rfl, rfl⟩
    · rcases hrest with ⟨fault, hr, hs⟩ | ⟨tokens, more, hr, hs, hds⟩ <;> rw [hr, hs]
      · exact .inl ⟨fault, rfl, rfl⟩
      · exact .inr ⟨tokens, more, rfl, rfl, hds⟩
    · rcases hrest with ⟨fault, hr, hs⟩ | ⟨tokens, more, hr, hs, hds⟩ <;> rw [hr, hs]
      · exact .inl ⟨fault, rfl, rfl⟩
      · exact .inr ⟨token :: tokens, same :: more, rfl, rfl, .cons hd hds⟩

/-- The tokens of a text at a displaced place, and the end of the input behind it, are displaced. -/
theorem exists_displaced (h : position.Displaced lines characters other) {text : List Char}
    {tokens : List Token} (ht : tokensOf (Segment.placed position (Segment.ofText text)) =
      .ok tokens) :
    ∃ others, tokensOf (Segment.placed other (Segment.ofText text)) = .ok others ∧
      List.Forall₂ (Token.Displaced lines characters) (tokens ++ [.finish (position.after text)])
        (others ++ [.finish (other.after text)]) := by
  have hfinish : (Token.finish (position.after text)).Displaced lines characters
      (.finish (other.after text)) := ⟨rfl, rfl, rfl, h.after text⟩
  rcases tokensOf_displaced h (Segment.ofText text) with ⟨_, hl, _⟩ | ⟨_, others, hl, ho, hds⟩ <;>
    rw [hl] at ht <;> cases ht
  exact ⟨others, ho, List.rel_append hds (.cons hfinish .nil)⟩

/-- Tokens stand where their segments stand. -/
theorem within_of_tokensOf {segments : List Segment} {tokens : List Token}
    (h : tokensOf (Segment.placed position segments) = .ok tokens) :
    ∀ token ∈ tokens, token.Within position (position.after (segments.flatMap Segment.text)) := by
  intro token hm
  obtain ⟨⟨place, segment⟩, hp, ht⟩ := tokenAt_of_mem_tokensOf h hm
  obtain ⟨_, front, back, hs, rfl⟩ := Segment.split_of_mem_placed hp
  obtain ⟨htp, htl⟩ := Segment.place_of_tokenAt ht
  have hline : token.line = (position.after front).line := by rw [Token.line, htp]
  have hend : token.endOffset = (position.after (front ++ segment.text)).offset := by
    rw [Token.endOffset, htp, htl, String.length_ofList, Position.after_append,
      Position.after_offset _ segment.text]
  refine ⟨?_, ?_, ?_, ?_⟩
  · rw [hline]
    exact Position.line_le_after ..
  · rw [hline, hs, List.append_assoc, Position.after_append]
    exact Position.line_le_after ..
  · rw [htp, Position.after_offset]
    omega
  · rw [hend, hs, Position.after_append position (front ++ segment.text),
      Position.after_offset _ back]
    omega

/-- Blanks and comments have no tokens. -/
theorem tokensOf_eq_nil {segments : List Segment}
    (h : ∀ segment ∈ segments, segment.isToken = false) (position : Position) :
    tokensOf (Segment.placed position segments) = .ok [] := by
  induction segments generalizing position with
  | nil => rfl
  | cons segment rest ih =>
    obtain ⟨hs, hr⟩ := List.forall_mem_cons.mp h
    simp only [Segment.placed, tokensOf, Segment.tokenAt_eq_none_iff.mpr hs, ih hr]
    rfl

/-! ## Sources with layout -/

/-- With layout at the start of a line, a source has the tokens before the line, and then those
behind the layout, from where the layout ends on. -/
theorem ofChars_layout {before gap behind : List Char} (hb : Fresh before)
    (hg : Layout behind gap) :
    (ofChars (before ++ gap ++ behind)).map TokenStream.tokens =
      (tokensOf (Segment.placed Position.start (Segment.ofText before))).bind fun front =>
        (tokensOf (Segment.placed (Position.start.after (before ++ gap))
            (Segment.ofText behind))).map fun back =>
          front ++ (back ++ [.finish ((Position.start.after (before ++ gap)).after behind)]) := by
  obtain ⟨segments, ho, ht, hs⟩ := Segment.ofText_layout hg
  obtain ⟨front, hf, ha⟩ := Segment.ofText_fresh hb (gap ++ behind)
  have htext : front.flatMap Segment.text = before :=
    (Segment.flatMap_text_of_agrees ha).symm.trans (Segment.flatMap_text_ofText before)
  have hplace : (Position.start.after before).after (segments.flatMap Segment.text) =
      Position.start.after (before ++ gap) := by
    rw [ht, Position.after_append]
  have htokens : tokensOf (Segment.placed Position.start
        (Segment.ofText (before ++ gap ++ behind))) =
      (tokensOf (Segment.placed Position.start (Segment.ofText before))).bind fun front =>
        (tokensOf (Segment.placed (Position.start.after (before ++ gap))
          (Segment.ofText behind))).map (front ++ ·) := by
    rw [List.append_assoc, hf, ho, Segment.placed_append, Segment.placed_append, htext, hplace,
      tokensOf_append, tokensOf_append, tokensOf_eq_nil hs,
      tokensOf_agrees ha]
    cases tokensOf (Segment.placed (Position.start.after (before ++ gap))
      (Segment.ofText behind)) <;> rfl
  unfold ofChars
  dsimp only
  rw [htokens, Position.after_append Position.start (before ++ gap)]
  cases tokensOf (Segment.placed Position.start (Segment.ofText before)) with
  | error fault => rfl
  | ok front =>
    cases tokensOf (Segment.placed (Position.start.after (before ++ gap))
        (Segment.ofText behind)) with
    | error fault => rfl
    | ok back => exact congrArg Except.ok (List.append_assoc ..)

/-- Tokens before the start of a line stand on lines above it and end before it. -/
theorem above_of_fresh {before : List Char} (h : Fresh before) {front : List Token}
    (ht : tokensOf (Segment.placed Position.start (Segment.ofText before)) = .ok front) :
    ∀ token ∈ front, token.line < (Position.start.after before).line ∧
      token.endOffset < (Position.start.after before).offset := by
  intro token hm
  rcases h.eq_nil_or with rfl | ⟨first, segments, rfl, hsegments, htext⟩
  · rw [Segment.ofText] at ht
    cases ht
    cases hm
  · have hfirst : tokensOf (Segment.placed Position.start segments) = .ok front := by
      rw [hsegments, Segment.placed_append, tokensOf_append] at ht
      cases hf : tokensOf (Segment.placed Position.start segments) with
      | error fault =>
        rw [hf] at ht
        cases ht
      | ok tokens =>
        rw [hf] at ht
        cases ht
        exact congrArg Except.ok (List.append_nil tokens).symm
    have hw := within_of_tokensOf hfirst token hm
    rw [htext] at hw
    have hbelow := hw.below
    have hstop := hw.stop
    have hnext : Position.start.after (first ++ ['\n']) =
        (Position.start.after first).next '\n' := by
      rw [Position.after_append]
      rfl
    rw [hnext, Position.next, if_pos rfl]
    exact ⟨Int.lt_add_one_of_le hbelow, Int.lt_add_one_of_le hstop⟩

/-- The tokens of a text, and the end of the input behind it, stand where the text stands. -/
theorem within_of_ofText {text : List Char} {tokens : List Token}
    (h : tokensOf (Segment.placed position (Segment.ofText text)) = .ok tokens) :
    ∀ token ∈ tokens ++ [.finish (position.after text)],
      token.Within position (position.after text) := by
  have hw := within_of_tokensOf h
  rw [Segment.flatMap_text_ofText] at hw
  intro token hm
  rcases List.mem_append.mp hm with hm | hm
  · exact hw token hm
  · rw [List.mem_singleton.mp hm]
    refine ⟨Position.line_le_after .., Int.le_refl _, ?_, ?_⟩
    · rw [Token.finish, Position.after_offset]
      omega
    · rw [Token.finish, Token.endOffset]
      exact Int.le_of_eq (Int.add_zero _)

/-- Tokens before the start of a line stand above those that stand behind the layout of the line,
and apart from them. -/
theorem apart_of_fresh {before gap : List Char} (h : Fresh before) {front tokens : List Token}
    (ht : tokensOf (Segment.placed Position.start (Segment.ofText before)) = .ok front)
    {last : Position}
    (hw : ∀ token ∈ tokens, token.Within (Position.start.after (before ++ gap)) last) :
    ∀ token ∈ front, ∀ behind ∈ tokens,
      token.line < behind.line ∧ token.endOffset < behind.position.offset := by
  intro token hm behind hb
  obtain ⟨hline, hoffset⟩ := above_of_fresh h ht token hm
  have hstart := (hw behind hb).start
  have habove := (hw behind hb).above
  have hle := Position.line_le_after (Position.start.after before) gap
  rw [Position.after_append] at hstart habove
  rw [Position.after_offset _ gap] at hstart
  exact ⟨by omega, by omega⟩

end TokenStream

end Blueprint
