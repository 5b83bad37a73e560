import Blueprint.Proofs.Token.Seam

/-!
# Sources are read line by line

A place after a text is that place before it, moved down by the line feeds of the text and on by its
characters; only columns start afresh. So what stands behind a line feed is read as if it were a
source of its own, and its tokens and diagnostics are those of that source with their places moved.
-/

namespace Blueprint

/-! ## Moving places -/

/-- A place so many lines further down and so many characters further on, in the same column. -/
def Position.shift (lines characters : Int) (position : Position) : Position :=
  ⟨position.line + lines, position.column, position.offset + characters⟩

/-- A token at a place that is moved. -/
def Token.shift (lines characters : Int) (token : Token) : Token :=
  { token with position := token.position.shift lines characters }

/-- A diagnostic at a place that is moved. -/
def Diagnostic.shift (lines characters : Int) (diagnostic : Diagnostic) : Diagnostic :=
  { diagnostic with position := diagnostic.position.map (Position.shift lines characters) }

namespace Position

variable (lines characters : Int)

/-- The place after a character moves as the place of the character does. -/
theorem shift_next (position : Position) (c : Char) :
    (position.shift lines characters).next c = (position.next c).shift lines characters := by
  unfold next
  split
  · have hl : position.line + lines + 1 = position.line + 1 + lines := Int.add_right_comm ..
    have ho : position.offset + characters + 1 = position.offset + 1 + characters :=
      Int.add_right_comm ..
    simp only [shift, hl, ho]
  · have ho : position.offset + characters + 1 = position.offset + 1 + characters :=
      Int.add_right_comm ..
    simp only [shift, ho]

/-- The place after a text moves as the place of the text does. -/
theorem shift_after (position : Position) (text : List Char) :
    (position.shift lines characters).after text =
      (position.after text).shift lines characters := by
  induction text generalizing position with
  | nil => rfl
  | cons c rest ih => rw [after_cons, after_cons, shift_next, ih]

/-- The place behind a line feed is the start of a source, moved by the text before it. -/
theorem start_after_line (text : List Char) :
    start.after (text ++ ['\n']) = start.shift (text.count '\n' + 1) (text.length + 1) := by
  have hl : (1 : Int) + (text.count '\n' + 1) = text.count '\n' + 1 + 1 := Int.add_comm ..
  have ho : (0 : Int) + (text.length + 1) = text.length + 1 := Int.zero_add _
  rw [after_append, start_after]
  simp only [after_cons, after_nil, next, if_pos, shift, start, hl, ho]

end Position

/-! ## Moving segments -/

namespace Segment

variable (lines characters : Int)

/-- The places of segments move as the place of the first one does. -/
theorem placed_shift (position : Position) (segments : List Segment) :
    placed (position.shift lines characters) segments =
      (placed position segments).map fun place => (place.1.shift lines characters, place.2) := by
  induction segments generalizing position with
  | nil => rfl
  | cons segment rest ih =>
    rw [placed, placed, Position.shift_after, ih, List.map_cons]

/-- Segments that follow others start where those end. -/
theorem placed_append (position : Position) (segments others : List Segment) :
    placed position (segments ++ others) =
      placed position segments ++ placed (position.after (segments.flatMap text)) others := by
  induction segments generalizing position with
  | nil => rfl
  | cons segment rest ih =>
    rw [List.cons_append, placed, placed, ih, List.flatMap_cons, Position.after_append,
      List.cons_append]

/-- The token of a segment moves as its place does. -/
theorem tokenAt_shift (position : Position) (segment : Segment) :
    segment.tokenAt (position.shift lines characters) =
      (segment.tokenAt position).map (Option.map (Token.shift lines characters)) := by
  cases segment with
  | lexeme kind text =>
    simp only [tokenAt]
    cases valueOf kind text <;> rfl
  | _ => rfl

/-- Only warnings are reported about the characters of a source. -/
def Faultless (source : List Char) : Prop :=
  ∀ segment ∈ ofText source, ∀ remark ∈ segment.remarks, remark.issue.isWarning = true

/-- A faultless source is complete. -/
theorem Faultless.complete {source : List Char} (h : Faultless source) : Complete source := by
  intro segment hs remark hr
  have hw := h segment hs remark hr
  cases hi : remark.issue with
  | unknownEscape c => rfl
  | _ =>
    rw [hi] at hw
    cases hw

end Segment

namespace TokenStream

/-- The tokens of segments that follow others follow their tokens. -/
theorem tokensOf_append (places others : List (Position × Segment)) :
    tokensOf (places ++ others) =
      (tokensOf places).bind fun tokens => (tokensOf others).map (tokens ++ ·) := by
  induction places with
  | nil =>
    rw [List.nil_append]
    cases tokensOf others <;> rfl
  | cons place rest ih =>
    obtain ⟨position, segment⟩ := place
    rw [List.cons_append, tokensOf, tokensOf, ih]
    cases segment.tokenAt position with
    | error fault => rfl
    | ok token =>
      cases tokensOf rest with
      | error fault => rfl
      | ok tokens =>
        cases tokensOf others with
        | error fault => rfl
        | ok more => exact congrArg Except.ok (List.append_assoc ..).symm

variable (lines characters : Int)

/-- The tokens of segments move as their places do. -/
theorem tokensOf_shift (places : List (Position × Segment)) :
    tokensOf (places.map fun place => (place.1.shift lines characters, place.2)) =
      (tokensOf places).map (List.map (Token.shift lines characters)) := by
  induction places with
  | nil => rfl
  | cons place rest ih =>
    obtain ⟨position, segment⟩ := place
    rw [List.map_cons, tokensOf, tokensOf, ih, Segment.tokenAt_shift]
    cases segment.tokenAt position with
    | error fault => rfl
    | ok token =>
      cases tokensOf rest with
      | error fault => rfl
      | ok tokens => cases token <;> rfl

/-- What is wrong with a segment moves as its place does. -/
theorem diagnosticsAt_shift (position : Position) (segment : Segment) :
    diagnosticsAt (position.shift lines characters) segment =
      (diagnosticsAt position segment).map (Diagnostic.shift lines characters) := by
  unfold diagnosticsAt
  rw [List.map_map]
  refine List.map_congr_left fun remark _ => ?_
  rw [Position.shift_after]
  rfl

/-- What is wrong with segments moves as their places do. -/
theorem flatMap_diagnosticsAt_shift (places : List (Position × Segment)) :
    ((places.map fun place => (place.1.shift lines characters, place.2)).flatMap
        fun (position, segment) => diagnosticsAt position segment) =
      (places.flatMap fun (position, segment) => diagnosticsAt position segment).map
        (Diagnostic.shift lines characters) := by
  rw [List.flatMap_map, List.map_flatMap]
  exact List.flatMap_congr fun place _ => diagnosticsAt_shift lines characters place.1 place.2

/-! ## Reading behind a line feed -/

/-- Behind a complete text and a line feed, a source is read as if it stood alone, and its tokens
and diagnostics follow those of the text. -/
theorem ofChars_seam {first : List Char} (second : List Char) (h : Segment.Complete first) :
    ofChars (first ++ '\n' :: second) =
      (tokensOf (Segment.placed Position.start (Segment.ofText first))).bind fun tokens =>
        (ofChars second).map fun after =>
          { tokens := tokens ++
              after.tokens.map (Token.shift (first.count '\n' + 1) (first.length + 1))
            diagnostics :=
              ((Segment.placed Position.start (Segment.ofText first)).flatMap
                fun (position, segment) => diagnosticsAt position segment) ++
              after.diagnostics.map
                (Diagnostic.shift (first.count '\n' + 1) (first.length + 1)) } := by
  have hstart : (Position.start.after first).after ['\n'] =
      Position.start.shift (first.count '\n' + 1) (first.length + 1) := by
    rw [← Position.after_append, Position.start_after_line]
  have hplaced : Segment.placed Position.start (Segment.ofText (first ++ '\n' :: second)) =
      Segment.placed Position.start (Segment.ofText first) ++
        (Position.start.after first, .blank '\n') ::
          (Segment.placed Position.start (Segment.ofText second)).map fun place =>
            (place.1.shift (first.count '\n' + 1) (first.length + 1), place.2) := by
    rw [Segment.ofText_seam second h, Segment.placed_append, Segment.flatMap_text_ofText,
      Segment.placed, Segment.text, hstart, Segment.placed_shift]
  have hfinish : Position.start.after (first ++ '\n' :: second) =
      (Position.start.after second).shift (first.count '\n' + 1) (first.length + 1) := by
    rw [List.append_cons, Position.after_append, Position.start_after_line, Position.shift_after]
  unfold ofChars
  dsimp only
  rw [hplaced, hfinish, tokensOf_append, tokensOf, tokensOf_shift, List.flatMap_append,
    List.flatMap_cons, flatMap_diagnosticsAt_shift]
  cases tokensOf (Segment.placed Position.start (Segment.ofText first)) with
  | error fault => rfl
  | ok tokens =>
    cases tokensOf (Segment.placed Position.start (Segment.ofText second)) with
    | error fault => rfl
    | ok more =>
      refine congrArg Except.ok (congrArg₂ TokenStream.mk ?_ rfl)
      rw [List.map_append, ← List.append_assoc]
      rfl

/-- A source without an error is faultless. -/
theorem faultless_of_ofChars {source : List Char} {stream : TokenStream}
    (h : ofChars source = .ok stream)
    (he : ∀ diagnostic ∈ stream.diagnostics, diagnostic.severity ≠ .error) :
    Segment.Faultless source := by
  intro segment hs remark hr
  obtain ⟨tokens, _, rfl⟩ := ofChars_eq_ok_iff.mp h
  obtain ⟨position, hp⟩ := Segment.exists_mem_placed hs Position.start
  have hsev := he _ (List.mem_flatMap.mpr
    ⟨(position, segment), hp, List.mem_map.mpr ⟨remark, hr, rfl⟩⟩)
  by_contra hw
  exact hsev (if_neg hw)

/-- A source about which nothing is reported is complete. -/
theorem complete_of_eq_nil {source : String} {stream : TokenStream}
    (h : ofString source = .ok stream) (hn : stream.diagnostics = []) :
    Segment.Complete source.toList :=
  (faultless_of_ofChars h fun _ hm => absurd (hn ▸ hm) List.not_mem_nil).complete

/-- Behind a complete source and a line feed, the tokens and diagnostics of a source follow those of
the complete one, without its end of the input. -/
theorem ofString_seam {first : String} {before : TokenStream} (h : ofString first = .ok before)
    (hc : Segment.Complete first.toList) (second : String) :
    ofString (first ++ "\n" ++ second) = (ofString second).map fun after =>
      { tokens := before.tokens.filter (·.kind != .endOfInput) ++
          after.tokens.map (Token.shift (first.toList.count '\n' + 1) (first.length + 1))
        diagnostics := before.diagnostics ++
          after.diagnostics.map
            (Diagnostic.shift (first.toList.count '\n' + 1) (first.length + 1)) } := by
  obtain ⟨tokens, ht, rfl⟩ := ofChars_eq_ok_iff.mp h
  have hf : (tokens ++ [Token.finish (Position.start.after first.toList)]).filter
      (·.kind != .endOfInput) = tokens := by
    obtain ⟨front, hfront, hs⟩ := exists_slices h
    obtain ⟨rfl, _⟩ := List.append_inj' hfront rfl
    have hall : ∀ token ∈ tokens, (token.kind != .endOfInput) = true := by
      intro token hm
      obtain ⟨place, _, hp⟩ := exists_place hs hm
      exact bne_iff_ne.mpr hp.kind_ne
    rw [List.filter_append, List.filter_eq_self.mpr hall]
    exact List.append_nil _
  have hchars : (first ++ "\n" ++ second).toList = first.toList ++ '\n' :: second.toList := by
    rw [String.toList_append, String.toList_append, List.append_assoc]
    rfl
  unfold ofString
  rw [hchars, ofChars_seam second.toList hc, ht, hf]
  rfl

/-- If a source has no error, then behind it and a line feed every source is read as it is alone.
The tokens are those of the first source without its end of the input, then those of the second one
on later lines and at later offsets, in the same columns; the diagnostics are those of both, moved
in the same way. If the second source cannot be read, neither can the two together, and nothing else
keeps them from it. -/
theorem ofString_lines {first : String} {before : TokenStream} (h : ofString first = .ok before)
    (he : ∀ diagnostic ∈ before.diagnostics, diagnostic.severity ≠ .error) (second : String) :
    ofString (first ++ "\n" ++ second) = (ofString second).map fun after =>
      { tokens := before.tokens.filter (·.kind != .endOfInput) ++
          after.tokens.map (Token.shift (first.toList.count '\n' + 1) (first.length + 1))
        diagnostics := before.diagnostics ++
          after.diagnostics.map
            (Diagnostic.shift (first.toList.count '\n' + 1) (first.length + 1)) } :=
  ofString_seam h (faultless_of_ofChars h he).complete second

/-- A source with an unknown escape that ends in a comment, and one with an unexpected character at
its end behind it. -/
theorem ofString_lines_comment :
    ∃ before after, ofString "a \"\\q\" \n1. // b" = .ok before ∧
      before.diagnostics.length = 1 ∧
      ofString "\"\"\" c\n\"\"\" \\" = .ok after ∧ after.diagnostics.length = 1 ∧
      ofString "a \"\\q\" \n1. // b\n\"\"\" c\n\"\"\" \\" = .ok
        { tokens := before.tokens.filter (·.kind != .endOfInput) ++
            after.tokens.map (Token.shift 2 16)
          diagnostics := before.diagnostics ++ after.diagnostics.map (Diagnostic.shift 2 16) } := by
  have hfirst : (ofString "a \"\\q\" \n1. // b").toOption.map
      (fun stream => (stream.diagnostics.map Diagnostic.severity)) = some [.warning] := by
    decide +kernel
  have hsecond : (ofString "\"\"\" c\n\"\"\" \\").toOption.map
      (fun stream => stream.diagnostics.length) = some 1 := by
    decide +kernel
  obtain ⟨before, hb, hw⟩ := exists_ok_of_map hfirst
  obtain ⟨after, ha, hl⟩ := exists_ok_of_map hsecond
  have hn : before.diagnostics.length = 1 := by
    rw [← List.length_map Diagnostic.severity, hw]
    rfl
  have he : ∀ diagnostic ∈ before.diagnostics, diagnostic.severity ≠ .error := by
    intro diagnostic hm
    have hs : diagnostic.severity ∈ [Severity.warning] := by
      rw [← hw]
      exact List.mem_map_of_mem hm
    rw [List.mem_singleton.mp hs]
    decide
  have hj := ofString_lines hb he "\"\"\" c\n\"\"\" \\"
  rw [ha] at hj
  exact ⟨before, after, hb, hn, ha, hl, hj⟩

end TokenStream

end Blueprint
