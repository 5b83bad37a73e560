import Blueprint.Proofs.Token.Cut
import Blueprint.Proofs.Token.Delimited

/-!
# Sources written anew with single spaces

The tokens of a source can be written one after the other with a space between each two. If no error
is reported about the source, the text that this makes has the same tokens again: each is delimited,
and the spaces part them. What stands between the tokens of a source, blanks and comments, tells
nothing but where one token ends and the next one starts.
-/

namespace Blueprint

open Blueprint.Text

/-! ## Segments with spaces between them -/

namespace Segment

/-- The text of segments with a space between each two. -/
def spaced (segments : List Segment) : List Char := [' '].intercalate (segments.map text)

/-- The segments of delimited segments that are written with spaces are these and the spaces. -/
theorem ofText_spaced {segments : List Segment} (h : ∀ segment ∈ segments, segment.Delimited) :
    ofText (spaced segments) = segments.intersperse (.blank ' ') := by
  unfold spaced
  induction segments with
  | nil =>
    rw [List.map_nil, List.intercalate_nil, ofText]
    rfl
  | cons first rest ih =>
    obtain ⟨hfirst, hrest⟩ := List.forall_mem_cons.mp h
    cases rest with
    | nil =>
      have hend := hfirst.ofText_eq parted_nil
      rw [List.append_nil, ofText] at hend
      rw [List.map_singleton, List.intercalate_singleton, List.intersperse_singleton]
      exact hend
    | cons second rest =>
      have hblank : separates ' ' = true := rfl
      have hspace : ∀ more, ofText (' ' :: more) = .blank ' ' :: ofText more :=
        fun more => (Starts.blank hblank).ofText_eq rfl
      have hmore := ih hrest
      rw [List.map_cons] at hmore ⊢
      rw [List.map_cons, List.intercalate_cons_cons, List.append_assoc, List.singleton_append,
        hfirst.ofText_eq (parted_cons hblank _), hspace, hmore, List.intersperse_cons_cons]

/-- Between segments with spaces there are the segments and the spaces. -/
theorem eq_or_mem_of_mem_intersperse {segments : List Segment} {segment : Segment}
    (h : segment ∈ segments.intersperse (.blank ' ')) :
    segment = .blank ' ' ∨ segment ∈ segments := by
  induction segments with
  | nil => exact .inr h
  | cons first rest ih =>
    cases rest with
    | nil => exact .inr h
    | cons second rest =>
      rw [List.intersperse_cons_cons] at h
      rcases List.mem_cons.mp h with rfl | h
      · exact .inr List.mem_cons_self
      rcases List.mem_cons.mp h with rfl | h
      · exact .inl rfl
      · exact (ih h).imp_right (List.mem_cons_of_mem _)

/-- Segments keep their order when they get their places. -/
theorem map_snd_placed (position : Position) (segments : List Segment) :
    (placed position segments).map Prod.snd = segments := by
  induction segments generalizing position with
  | nil => rfl
  | cons segment rest ih => rw [placed, List.map_cons, ih]

/-- Spaces between segments of tokens are none. -/
theorem filter_intersperse {segments : List Segment}
    (h : ∀ segment ∈ segments, segment.isToken = true) :
    (segments.intersperse (.blank ' ')).filter isToken = segments := by
  induction segments with
  | nil => rfl
  | cons first rest ih =>
    obtain ⟨hfirst, hrest⟩ := List.forall_mem_cons.mp h
    cases rest with
    | nil => rw [List.intersperse_singleton, List.filter_cons_of_pos hfirst, List.filter_nil]
    | cons second rest =>
      have hblank : ¬ (Segment.blank ' ').isToken = true := nofun
      rw [List.intersperse_cons_cons, List.filter_cons_of_pos hfirst,
        List.filter_cons_of_neg hblank, ih hrest]

end Segment

/-! ## What tokens are read as -/

/-- What a token is read as, wherever it stands: its kind, the text it is written with, and its
value. -/
def Token.reading (token : Token) : Kind × String × Value :=
  (token.kind, token.lexeme, token.value)

namespace TokenStream

/-- What the token of a segment is read as does not depend on its place. -/
theorem reading_tokenAt (segment : Segment) (position other : Position) :
    (segment.tokenAt position).map (Option.map Token.reading) =
      (segment.tokenAt other).map (Option.map Token.reading) := by
  cases segment with
  | lexeme kind text =>
    simp only [Segment.tokenAt]
    cases Segment.valueOf kind text <;> rfl
  | _ => rfl

/-- What the tokens of segments are read as is that of the first one, then that of the others. -/
theorem reading_tokensOf_cons (position : Position) (segment : Segment)
    (rest : List (Position × Segment)) :
    (tokensOf ((position, segment) :: rest)).map (List.map Token.reading) =
      ((segment.tokenAt position).map (Option.map Token.reading)).bind fun first =>
        ((tokensOf rest).map (List.map Token.reading)).map (first.toList ++ ·) := by
  rw [tokensOf]
  cases segment.tokenAt position with
  | error fault => rfl
  | ok found =>
    cases tokensOf rest with
    | error fault => rfl
    | ok tokens => cases found <;> rfl

/-- What the tokens of segments are read as depends on the segments with tokens only, and not on
their places. -/
theorem reading_tokensOf (segments : List Segment) (position other : Position) :
    (tokensOf (Segment.placed position segments)).map (List.map Token.reading) =
      (tokensOf (Segment.placed other (segments.filter Segment.isToken))).map
        (List.map Token.reading) := by
  induction segments generalizing position other with
  | nil => rfl
  | cons segment rest ih =>
    rw [Segment.placed, reading_tokensOf_cons]
    cases hs : segment.isToken with
    | false =>
      have hskip : ¬ segment.isToken = true := Bool.eq_false_iff.mp hs
      rw [List.filter_cons_of_neg hskip, Segment.tokenAt_eq_none_iff.mpr hs,
        ih (position.after segment.text) other]
      generalize (tokensOf (Segment.placed other _)).map _ = readings
      cases readings <;> rfl
    | true =>
      rw [List.filter_cons_of_pos hs, Segment.placed, reading_tokensOf_cons,
        reading_tokenAt segment position other,
        ih (position.after segment.text) (other.after segment.text)]

/-- The tokens of a source are those of its segments, and the end of the input. -/
theorem filter_tokens {source : List Char} {stream : TokenStream}
    (h : ofChars source = .ok stream) :
    tokensOf (Segment.placed Position.start (Segment.ofText source)) =
        .ok (stream.tokens.filter (·.kind != .endOfInput)) ∧
      stream.tokens = stream.tokens.filter (·.kind != .endOfInput) ++
        [.finish (Position.start.after source)] := by
  obtain ⟨front, hf, hk⟩ := (placed_of_ofChars h).ends
  have hfront : stream.tokens.filter (·.kind != .endOfInput) = front := by
    rw [hf, List.filter_append,
      List.filter_eq_self.mpr fun token hm => bne_iff_ne.mpr (hk token hm)]
    exact List.append_nil _
  rw [hfront]
  exact ⟨tokensOf_of_ofChars h hf, hf⟩

/-- The tokens of segments are written as the segments with tokens are. -/
theorem lexemes_tokensOf {segments : List Segment} {position : Position} {tokens : List Token}
    (h : tokensOf (Segment.placed position segments) = .ok tokens) :
    tokens.map (·.lexeme.toList) = (segments.filter Segment.isToken).map Segment.text := by
  have hsame := (forall₂_tokensOf h).imp fun place token ht =>
    show place.2.text = token.lexeme.toList by
      rw [(Segment.place_of_tokenAt ht).2, String.toList_ofList]
  rw [← Segment.map_snd_placed position segments, List.filter_map, List.map_map]
  refine Eq.symm ?_
  rw [← List.forall₂_eq_eq_eq, List.forall₂_map_left_iff, List.forall₂_map_right_iff]
  exact hsame

/-- Written with spaces, the segments with tokens have tokens that are read as those of all the
segments are. -/
theorem exists_reading_intersperse {segments : List Segment} {position : Position}
    {tokens : List Token} (h : tokensOf (Segment.placed position segments) = .ok tokens) :
    ∃ more, tokensOf (Segment.placed position
        ((segments.filter Segment.isToken).intersperse (.blank ' '))) = .ok more ∧
      more.map Token.reading = tokens.map Token.reading := by
  have hspaced := reading_tokensOf
    ((segments.filter Segment.isToken).intersperse (.blank ' ')) position position
  rw [Segment.filter_intersperse fun segment hm => (List.mem_filter.mp hm).2,
    ← reading_tokensOf segments position position, h] at hspaced
  generalize tokensOf (Segment.placed position _) = found at hspaced
  cases found with
  | error fault => cases hspaced
  | ok more => exact ⟨more, rfl, Except.ok.inj hspaced⟩

/-- A source without an error, written anew with single spaces between its tokens, has tokens that
are read as these are, and no error. -/
theorem ofString_respaced {source : String} {stream : TokenStream}
    (h : ofString source = .ok stream)
    (he : ∀ diagnostic ∈ stream.diagnostics, diagnostic.severity ≠ .error) :
    ∃ again, ofString (" ".intercalate
        ((stream.tokens.filter (·.kind != .endOfInput)).map Token.lexeme)) = .ok again ∧
      (∀ diagnostic ∈ again.diagnostics, diagnostic.severity ≠ .error) ∧
      again.tokens.map Token.reading = stream.tokens.map Token.reading := by
  have hf := faultless_of_ofChars h he
  obtain ⟨ht, htokens⟩ := filter_tokens h
  have hdelimited : ∀ segment ∈ (Segment.ofText source.toList).filter Segment.isToken,
      segment.Delimited := by
    intro segment hm
    obtain ⟨hm, hs⟩ := List.mem_filter.mp hm
    exact hf.delimited hm hs
  have hchars : (" ".intercalate
      ((stream.tokens.filter (·.kind != .endOfInput)).map Token.lexeme)).toList =
        Segment.spaced ((Segment.ofText source.toList).filter Segment.isToken) := by
    rw [String.toList_intercalate, List.map_map]
    exact congrArg (List.intercalate [' ']) (lexemes_tokensOf ht)
  have hsegments := Segment.ofText_spaced hdelimited
  have hspaced : Segment.Faultless
      (Segment.spaced ((Segment.ofText source.toList).filter Segment.isToken)) := by
    intro segment hm
    rw [hsegments] at hm
    rcases Segment.eq_or_mem_of_mem_intersperse hm with rfl | hm
    · exact fun remark hr => absurd hr List.not_mem_nil
    · exact hf segment (List.mem_filter.mp hm).1
  obtain ⟨more, hmore, hreading⟩ := exists_reading_intersperse ht
  rw [← hsegments, ← hchars] at hmore
  rw [← hchars] at hspaced
  have hagain := ofChars_eq_ok_iff.mpr ⟨more, hmore, rfl⟩
  refine ⟨_, hagain, fun diagnostic hm => ?_, ?_⟩
  · exact Diagnostic.severity_ne_of_isError (isError_of_faultless hagain hspaced diagnostic hm)
  · rw [htokens, List.map_append, List.map_append, hreading]
    rfl

/-- Tokens that touch each other, a comment in a comment, and literals with every sort of escape. -/
theorem ofString_respaced_dense :
    ∃ stream again,
      ofString "a/* /**/ */->b 1.5.3-/!const!\"p\\q\\\r\n\\u0041\"'''t''\n'''! //" = .ok stream ∧
      stream.diagnostics.length = 1 ∧
      ofString "a -> b 1.5 . 3 - / !const ! \"p\\q\\\r\n\\u0041\" '''t''\n''' !" = .ok again ∧
      (∀ diagnostic ∈ again.diagnostics, diagnostic.severity ≠ .error) ∧
      again.tokens.map Token.reading = stream.tokens.map Token.reading := by
  have hdecided :
      (ofString "a/* /**/ */->b 1.5.3-/!const!\"p\\q\\\r\n\\u0041\"'''t''\n'''! //").toOption.map
        (fun stream => (stream.diagnostics.map Diagnostic.severity, " ".intercalate
          ((stream.tokens.filter (·.kind != .endOfInput)).map Token.lexeme))) =
      some ([.warning], "a -> b 1.5 . 3 - / !const ! \"p\\q\\\r\n\\u0041\" '''t''\n''' !") := by
    decide +kernel
  obtain ⟨stream, hs, hv⟩ := exists_ok_of_map hdecided
  obtain ⟨hseverity, htext⟩ := Prod.mk.inj hv
  have he : ∀ diagnostic ∈ stream.diagnostics, diagnostic.severity ≠ .error := by
    intro diagnostic hm
    have hw : diagnostic.severity ∈ [Severity.warning] := by
      rw [← hseverity]
      exact List.mem_map_of_mem hm
    rw [List.mem_singleton.mp hw]
    decide
  have hl : stream.diagnostics.length = 1 := by
    rw [← List.length_map Diagnostic.severity, hseverity]
    rfl
  obtain ⟨again, ha, hn, hr⟩ := ofString_respaced hs he
  rw [htext] at ha
  exact ⟨stream, again, hs, hl, ha, hn, hr⟩

end TokenStream

end Blueprint
