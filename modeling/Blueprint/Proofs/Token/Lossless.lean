import Blueprint.Proofs.Token.Next
import Blueprint.Proofs.Token.Slice

/-!
# Segments account for every character

Every character of a source stands in exactly one segment, and every segment is what its sort says:
a token, a blank, a line comment up to its line end, a block comment up to the point where its
delimiters balance, or a character that nothing starts with. The tokens are the segments of tokens;
characters that nothing starts with and block comments without an end are reported, each once and at
its own offset.
-/

namespace Blueprint

open Blueprint.Text

/-! ## Nesting of block comments -/

/-- What a comment consists of: delimiters, and other characters. -/
inductive Mark where
  /-- A further comment starts. -/
  | opening
  /-- A comment ends. -/
  | closing
  /-- Any other character. -/
  | plain (c : Char)
  deriving DecidableEq, Repr

namespace Mark

/-- The marks of a text, read from its front: a delimiter takes two characters. -/
def ofText : List Char → List Mark
  | [] => []
  | '/' :: '*' :: rest => .opening :: ofText rest
  | '*' :: '/' :: rest => .closing :: ofText rest
  | c :: rest => .plain c :: ofText rest

/-- How a mark changes the count of comments that are open. -/
def weight : Mark → Int
  | .opening => 1
  | .closing => -1
  | .plain _ => 0

/-- The count of comments that marks open, less the count of those they close. -/
def depth : List Mark → Int
  | [] => 0
  | mark :: marks => mark.weight + depth marks

/-- The nesting stays above a floor. -/
def StaysAbove (floor : Int) (marks : List Mark) : Prop :=
  ∀ front, front <+: marks → floor < depth front

/-- The nesting comes down to a floor at the end of the marks, and not before. -/
def EndsAt (floor : Int) (marks : List Mark) : Prop :=
  depth marks = floor ∧ ∀ front, front <+: marks → front ≠ marks → floor < depth front

/-- The first mark changes the count for all that follow. -/
@[simp] theorem depth_cons (mark : Mark) (marks : List Mark) :
    depth (mark :: marks) = mark.weight + depth marks := rfl

/-- Before the first mark nothing is open. -/
@[simp] theorem depth_nil : depth [] = 0 := rfl

/-- One more mark before marks that stay above a floor. -/
theorem StaysAbove.cons {floor : Int} {mark : Mark} {marks : List Mark} (hf : floor < 0)
    (h : StaysAbove (floor - mark.weight) marks) : StaysAbove floor (mark :: marks) := by
  intro front hp
  rcases List.prefix_cons_iff.mp hp with rfl | ⟨more, rfl, hm⟩
  · exact hf
  · have hd := h more hm
    rw [depth_cons]
    omega

/-- One more mark before marks that end at a floor. -/
theorem EndsAt.cons {floor : Int} {mark : Mark} {marks : List Mark} (hf : floor < 0)
    (h : EndsAt (floor - mark.weight) marks) : EndsAt floor (mark :: marks) := by
  refine ⟨?_, ?_⟩
  · rw [depth_cons, h.1]
    omega
  · intro front hp hn
    rcases List.prefix_cons_iff.mp hp with rfl | ⟨more, rfl, hm⟩
    · exact hf
    · have hd := h.2 more hm fun he => hn (by rw [he])
      rw [depth_cons]
      omega

/-- A character that no delimiter starts with is a mark of its own. -/
theorem ofText_cons {c : Char} {text : List Char}
    (ho : ∀ rest, c = '/' → text = '*' :: rest → False)
    (hc : ∀ rest, c = '*' → text = '/' :: rest → False) :
    ofText (c :: text) = .plain c :: ofText text := by
  rw [ofText]
  · exact ho
  · exact hc

end Mark

namespace Segment

/-- How a block comment goes on after its opening delimiter and a count of further ones: if it is
closed, its delimiters balance at its end and not before; otherwise it is all of the text. -/
theorem nesting_commentBody (depth : Nat) (text : List Char) :
    ((commentBody depth text).2 = true →
      Mark.EndsAt (-(depth + 1 : Nat)) (Mark.ofText (commentBody depth text).1)) ∧
    ((commentBody depth text).2 = false → (commentBody depth text).1 = text ∧
      Mark.StaysAbove (-(depth + 1 : Nat)) (Mark.ofText (commentBody depth text).1)) := by
  induction depth, text using commentBody.induct with
  | case1 depth =>
    refine ⟨fun hc => Bool.noConfusion hc, fun _ => ⟨rfl, fun front hp => ?_⟩⟩
    rw [List.prefix_nil.mp hp, Mark.depth_nil]
    omega
  | case2 depth rest text closed h ih =>
    rw [commentBody]
    have he : (-(depth + 1 : Nat) : Int) - Mark.opening.weight = -(depth + 1 + 1 : Nat) := by
      rw [Mark.weight]
      omega
    rw [← he] at ih
    refine ⟨fun hc => .cons (by omega) (ih.1 hc), fun hc => ?_⟩
    exact ⟨congrArg ('/' :: '*' :: ·) (ih.2 hc).1, .cons (by omega) (ih.2 hc).2⟩
  | case3 rest =>
    rw [commentBody]
    refine ⟨fun _ => ⟨rfl, fun front hp hn => ?_⟩, fun hc => Bool.noConfusion hc⟩
    rcases List.prefix_cons_iff.mp hp with rfl | ⟨more, rfl, hm⟩
    · decide
    · rw [List.prefix_nil.mp hm] at hn
      exact absurd rfl hn
  | case4 depth rest text closed h ih =>
    rw [commentBody]
    have he : (-(depth.succ + 1 : Nat) : Int) - Mark.closing.weight = -(depth + 1 : Nat) := by
      rw [Mark.weight]
      omega
    rw [← he] at ih
    refine ⟨fun hc => .cons (by omega) (ih.1 hc), fun hc => ?_⟩
    exact ⟨congrArg ('*' :: '/' :: ·) (ih.2 hc).1, .cons (by omega) (ih.2 hc).2⟩
  | case5 depth c rest ho hz hs text closed h ih =>
    have hc : ∀ more, c = '*' → rest = '/' :: more → False := by
      intro more hc hr
      cases depth with
      | zero => exact hz more rfl hc hr
      | succ depth => exact hs depth more rfl hc hr
    -- The body is a prefix of the rest, so no delimiter starts at its front either.
    have hm : Mark.ofText (c :: (commentBody depth rest).1) =
        .plain c :: Mark.ofText (commentBody depth rest).1 := by
      obtain ⟨after, hp⟩ := commentBody_isPrefix depth rest
      refine Mark.ofText_cons (fun more hc ht => ?_) (fun more hs ht => ?_)
      · exact ho (more ++ after) hc (by rw [← hp, ht]; rfl)
      · exact hc (more ++ after) hs (by rw [← hp, ht]; rfl)
    rw [commentBody]
    · have he : (-(depth + 1 : Nat) : Int) - (Mark.plain c).weight = -(depth + 1 : Nat) :=
        Int.sub_zero _
      rw [← he] at ih
      dsimp only
      rw [hm]
      refine ⟨fun hc => .cons (by omega) (ih.1 hc), fun hc => ?_⟩
      exact ⟨congrArg (c :: ·) (ih.2 hc).1, .cons (by omega) (ih.2 hc).2⟩
    all_goals assumption

/-! ## Shapes of segments -/

/-- A segment is what its sort says, given the text after it. -/
def Shaped (rest : List Char) : Segment → Prop
  | .lexeme _ text => text ≠ []
  | .literal scanned => scanned.raw ≠ []
  | .blank c => c = ' ' ∨ c = '\t' ∨ c = '\r' ∨ c = '\n'
  | .lineComment text =>
    (∃ body, text = '/' :: '/' :: body) ∧ '\n' ∉ text ∧ (rest = [] ∨ rest.head? = some '\n')
  | .blockComment text true =>
    ∃ body, text = '/' :: '*' :: body ∧ Mark.EndsAt (-1) (Mark.ofText body)
  | .blockComment text false =>
    rest = [] ∧ ∃ body, text = '/' :: '*' :: body ∧ Mark.StaysAbove (-1) (Mark.ofText body)
  | .unexpected c => Ordinary c ∧ c.isDigit = false ∧ startsWord c = false

/-- A line comment ends before a line feed or at the end. -/
theorem shaped_lineComment (body : List Char) :
    (Segment.lineComment ('/' :: '/' :: body.takeWhile (· != '\n'))).Shaped
      (body.drop (body.takeWhile (· != '\n')).length) := by
  have hrest : body.drop (body.takeWhile (· != '\n')).length = body.dropWhile (· != '\n') :=
    calc
      _ = (body.takeWhile (· != '\n') ++ body.dropWhile (· != '\n')).drop
          (body.takeWhile (· != '\n')).length := by rw [List.takeWhile_append_dropWhile]
      _ = _ := List.drop_left
  rw [hrest]
  refine ⟨⟨_, rfl⟩, ?_, ?_⟩
  · intro hm
    have hb : '\n' ∈ body.takeWhile (· != '\n') := by simpa using hm
    exact absurd (List.all_eq_true.mp List.all_takeWhile '\n' hb) (by decide)
  · have hd := List.head?_dropWhile_not (· != '\n') body
    cases hr : body.dropWhile (· != '\n') with
    | nil => exact .inl rfl
    | cons c more =>
      rw [hr] at hd
      exact .inr (congrArg some (by simpa using hd))

/-- A block comment ends where its delimiters balance, or at the end. -/
theorem shaped_blockComment (body : List Char) :
    (Segment.blockComment ('/' :: '*' :: (commentBody 0 body).1) (commentBody 0 body).2).Shaped
      (body.drop (commentBody 0 body).1.length) := by
  obtain ⟨hclosed, hopen⟩ := nesting_commentBody 0 body
  cases hc : (commentBody 0 body).2 with
  | true => exact ⟨_, rfl, hclosed hc⟩
  | false =>
    obtain ⟨hall, hstays⟩ := hopen hc
    refine ⟨?_, _, rfl, hstays⟩
    rw [hall, List.drop_length]

/-- The next segment is what its sort says. -/
theorem shaped_next (c : Char) (rest : List Char) :
    (next c rest).Shaped ((c :: rest).drop (next c rest).text.length) := by
  have hne := text_next_ne_nil c rest
  have hs := starts_next c rest
  revert hne hs
  generalize next c rest = segment
  intro hne hs
  cases hs with
  | blank hb =>
    simpa only [Shaped, separates, Bool.or_eq_true, beq_iff_eq, or_assoc] using hb
  | @lineComment body => exact shaped_lineComment body
  | @blockComment body => exact shaped_blockComment body
  | number ho hd =>
    obtain ⟨kind, text, hn⟩ := exists_number c rest
    rw [hn] at hne ⊢
    exact hne
  | unexpected ho hd hw => exact ⟨ho, hd, hw⟩
  | _ => exact hne

/-- Every segment of a source is what its sort says. -/
theorem shaped_ofText (source : List Char) : ∀ (front back : List Segment) (segment : Segment),
    ofText source = front ++ segment :: back → segment.Shaped (back.flatMap text) :=
  @forall_of_next (fun segment behind => segment.Shaped behind) shaped_next source

end Segment

/-! ## What is reported about literals -/

/-- Whether a problem is one of string literals. -/
def LexicalIssue.ofLiteral : LexicalIssue → Bool
  | .unexpectedCharacter _ | .unterminatedComment => false
  | _ => true

namespace Literal

/-- What is wrong with a numeric escape is a problem of literals. -/
theorem ofLiteral_numericEscape {marker : Char} {width : Nat} {text : List Char}
    {issue : LexicalIssue} (h : (numericEscape marker width text).issue = some issue) :
    issue.ofLiteral = true := by
  unfold numericEscape at h
  dsimp only at h
  split at h
  · cases h
    rfl
  · split at h <;> cases h
    rfl

/-- What is wrong with an escape is a problem of literals. -/
theorem ofLiteral_escape {rest : List Char} {issue : LexicalIssue}
    (h : (escape rest).issue = some issue) : issue.ofLiteral = true := by
  unfold escape at h
  split at h
  · cases h
  · cases h
  · cases h
  · exact ofLiteral_numericEscape h
  · exact ofLiteral_numericEscape h
  · split at h <;> cases h
    rfl

/-- What is wrong with a part of a literal is a problem of literals. -/
theorem ofLiteral_next {quote : Char} {triple : Bool} {c : Char} {rest : List Char} {piece : Piece}
    (hn : next quote triple c rest = .inl piece) {issue : LexicalIssue}
    (h : piece.issue = some issue) : issue.ofLiteral = true := by
  unfold next at hn
  split at hn
  · split at hn <;> cases hn
    cases h
  · split at hn
    · cases hn
    · split at hn <;> cases hn
      · exact ofLiteral_escape h
      · cases h

/-- What is wrong with the parts of a literal are problems of literals. -/
theorem ofLiteral_parts {quote : Char} {triple : Bool} {text : List Char} {piece : Piece}
    (hp : piece ∈ (parts quote triple text).1) {issue : LexicalIssue}
    (h : piece.issue = some issue) : issue.ofLiteral = true := by
  induction text using parts.induct quote triple with
  | case1 =>
    rw [parts] at hp
    cases hp
  | case2 c rest ending hn =>
    rw [parts_of_ending hn] at hp
    cases hp
  | case3 c rest first hn ih =>
    rw [parts_of_piece hn] at hp
    rcases List.mem_cons.mp hp with rfl | hp
    · exact ofLiteral_next hn h
    · exact ih hp

/-- What the parts of a literal are reported with are problems of literals. -/
theorem ofLiteral_partRemarks {pieces : List Piece} {distance : Nat} {remark : Remark}
    (hm : remark ∈ partRemarks distance pieces)
    (h : ∀ piece ∈ pieces, ∀ issue, piece.issue = some issue → issue.ofLiteral = true) :
    remark.issue.ofLiteral = true := by
  induction pieces generalizing distance with
  | nil => cases hm
  | cons piece more ih =>
    rw [partRemarks] at hm
    rcases List.mem_append.mp hm with hm | hm
    · obtain ⟨issue, hi, rfl⟩ := Option.map_eq_some_iff.mp (Option.mem_toList.mp hm)
      exact h piece List.mem_cons_self issue hi
    · exact ih hm fun other ho => h other (List.mem_cons_of_mem _ ho)

/-- What is wrong with a literal are problems of literals. -/
theorem ofLiteral_scan {quote : Char} {rest : List Char} {remark : Remark}
    (h : remark ∈ (scan quote rest).remarks) : remark.issue.ofLiteral = true := by
  unfold scan at h
  dsimp only at h
  rcases List.mem_append.mp h with h | h
  · exact ofLiteral_partRemarks h fun piece hp issue hi => ofLiteral_parts hp hi
  · unfold Ending.remarks at h
    split at h
    · cases h
    · rw [List.mem_singleton.mp h]
      rfl
    · rw [List.mem_singleton.mp h]
      rfl

end Literal

/-! ## Reports and their segments -/

namespace Segment

/-- Every literal of a source is one that was scanned. -/
theorem ofLiteral_of_mem {source : List Char} {scanned : Literal.Scanned}
    (h : .literal scanned ∈ ofText source) {remark : Remark} (hm : remark ∈ scanned.remarks) :
    remark.issue.ofLiteral = true := by
  obtain ⟨c, rest, he⟩ := exists_next_of_mem h
  have hs := starts_next c rest
  rw [← he] at hs
  generalize hg : Segment.literal scanned = found at hs
  cases hs with
  | literal =>
    cases hg
    exact Literal.ofLiteral_scan hm
  | number =>
    obtain ⟨kind, text, hk⟩ := exists_number c rest
    rw [hk] at hg
    cases hg
  | _ => cases hg

end Segment

namespace TokenStream

/-- Whether the message of a diagnostic starts with some words. -/
def tells (words : String) (diagnostic : Diagnostic) : Bool :=
  words.toList.isPrefixOf diagnostic.message.toList

/-- The message of a problem does not depend on its place. -/
theorem tells_lexical (words : String) (issue : LexicalIssue) (position : Option Position) :
    tells words (.of (.lexical issue) position) =
      words.toList.isPrefixOf issue.message.toList := rfl

/-- Words that part from a text before either of them ends are not at its start, however it goes
on. -/
theorem isPrefixOf_append_eq_false {words text more : String}
    (hw : words.toList.isPrefixOf text.toList = false)
    (ht : text.toList.isPrefixOf words.toList = false) :
    words.toList.isPrefixOf (text ++ more).toList = false := by
  rw [Bool.eq_false_iff, ne_eq, List.isPrefixOf_iff_prefix] at hw ht ⊢
  intro hp
  rw [String.toList_append] at hp
  rcases List.prefix_or_prefix_of_prefix hp (List.prefix_append text.toList more.toList) with h | h
  · exact hw h
  · exact ht h

/-- A problem of a literal is not worded as another one. -/
theorem tells_literal_eq_false {issue : LexicalIssue} (h : issue.ofLiteral = true) {words : String}
    (hw : words = "Unexpected character" ∨ words = "Unterminated block comment")
    (position : Option Position) : tells words (.of (.lexical issue) position) = false := by
  rw [tells_lexical]
  cases issue with
  | unexpectedCharacter => cases h
  | unterminatedComment => cases h
  | unterminatedString => rcases hw with rfl | rfl <;> decide
  | lineEndInString => rcases hw with rfl | rfl <;> decide
  | unknownEscape =>
    rcases hw with rfl | rfl <;> exact isPrefixOf_append_eq_false (by decide) (by decide)
  | incompleteEscape =>
    rcases hw with rfl | rfl <;> exact isPrefixOf_append_eq_false (by decide) (by decide)
  | invalidEscape =>
    rcases hw with rfl | rfl <;> exact isPrefixOf_append_eq_false (by decide) (by decide)

/-- The report on a segment at an offset that is a character that nothing starts with. -/
def unexpectedAt (source : List Char) (place : Nat × Segment) : Option Diagnostic :=
  match place.2 with
  | .unexpected c =>
    some ⟨.error, .lexical (.unexpectedCharacter c), some (Position.ofOffset source place.1)⟩
  | _ => none

/-- The report on a segment at an offset that is a block comment without an end. -/
def unclosedAt (source : List Char) (place : Nat × Segment) : Option Diagnostic :=
  match place.2 with
  | .blockComment _ false =>
    some ⟨.error, .lexical .unterminatedComment, some (Position.ofOffset source place.1)⟩
  | _ => none

/-- What is reported about literals is not worded as a report on another segment. -/
theorem filter_diagnosticsAt_literal {source : List Char} {scanned : Literal.Scanned}
    (h : .literal scanned ∈ Segment.ofText source) {words : String}
    (hw : words = "Unexpected character" ∨ words = "Unterminated block comment")
    (position : Position) :
    (diagnosticsAt position (.literal scanned)).filter (tells words) = [] := by
  rw [List.filter_eq_nil_iff]
  intro diagnostic hm
  obtain ⟨remark, hr, rfl⟩ := List.mem_map.mp hm
  rw [tells_literal_eq_false (Segment.ofLiteral_of_mem h hr) hw]
  exact Bool.false_ne_true

/-- An unexpected character is reported by its words. -/
theorem tells_unexpected (c : Char) (position : Option Position) :
    tells "Unexpected character" (.of (.lexical (.unexpectedCharacter c)) position) = true := by
  have hw : "Unexpected character".toList <+: "Unexpected character: ".toList := by decide
  have hm : (LexicalIssue.unexpectedCharacter c).message.toList =
      "Unexpected character: ".toList ++ (Quoted.ofChar c).toList := String.toList_append ..
  rw [tells_lexical, hm]
  exact List.isPrefixOf_iff_prefix.mpr (hw.trans (List.prefix_append _ _))

/-- A segment is reported as an unexpected character exactly if it is one. -/
theorem filter_unexpected {source : List Char} {place : Nat × Segment}
    (h : place.2 ∈ Segment.ofText source) :
    (diagnosticsAt (Position.ofOffset source place.1) place.2).filter
      (tells "Unexpected character") = (unexpectedAt source place).toList := by
  obtain ⟨offset, segment⟩ := place
  cases segment with
  | literal scanned => exact filter_diagnosticsAt_literal h (.inl rfl) _
  | unexpected c => exact List.filter_cons_of_pos (tells_unexpected c _)
  | blockComment text closed =>
    cases closed with
    | true => rfl
    | false =>
      have hs : tells "Unexpected character" (.of (.lexical .unterminatedComment)
          (some (Position.ofOffset source offset))) = false := by
        rw [tells_lexical]
        decide
      exact List.filter_cons_of_neg (Bool.eq_false_iff.mp hs)
  | _ => rfl

/-- A segment is reported as a block comment without an end exactly if it is one. -/
theorem filter_unclosed {source : List Char} {place : Nat × Segment}
    (h : place.2 ∈ Segment.ofText source) :
    (diagnosticsAt (Position.ofOffset source place.1) place.2).filter
      (tells "Unterminated block comment") = (unclosedAt source place).toList := by
  obtain ⟨offset, segment⟩ := place
  cases segment with
  | literal scanned => exact filter_diagnosticsAt_literal h (.inr rfl) _
  | unexpected c =>
    have hs : tells "Unterminated block comment" (.of (.lexical (.unexpectedCharacter c))
        (some (Position.ofOffset source offset))) = false :=
      isPrefixOf_append_eq_false (by decide) (by decide)
    exact List.filter_cons_of_neg (Bool.eq_false_iff.mp hs)
  | blockComment text closed =>
    cases closed with
    | true => rfl
    | false =>
      have hs : tells "Unterminated block comment" (.of (.lexical .unterminatedComment)
          (some (Position.ofOffset source offset))) = true := by
        rw [tells_lexical]
        decide
      exact List.filter_cons_of_pos hs
  | _ => rfl

/-- The diagnostics of one wording are those of the segments that are reported with it. -/
theorem filter_diagnostics {source : List Char} {stream : TokenStream}
    (h : ofChars source = .ok stream) {chosen : Diagnostic → Bool}
    {report : Nat × Segment → Option Diagnostic}
    (hr : ∀ place : Nat × Segment, place.2 ∈ Segment.ofText source →
      (diagnosticsAt (Position.ofOffset source place.1) place.2).filter chosen =
        (report place).toList) :
    stream.diagnostics.filter chosen =
      (Segment.numbered 0 (Segment.ofText source)).filterMap report := by
  obtain ⟨tokens, _, rfl⟩ := ofChars_eq_ok_iff.mp h
  rw [Segment.placed_ofText, List.flatMap_map, List.filter_flatMap,
    List.filterMap_eq_flatMap_toList]
  exact List.flatMap_congr fun place hm => hr place (Segment.le_of_mem_numbered hm).1

/-- What holds of a source, its tokens and diagnostics, and its segments. -/
structure Lossless (source : List Char) (stream : TokenStream) (segments : List Segment) :
    Prop where
  /-- The segments, one after the other, are the source. -/
  text : segments.flatMap Segment.text = source
  /-- Every segment is what its sort says. -/
  shaped : ∀ front back segment, segments = front ++ segment :: back →
    segment.Shaped (back.flatMap Segment.text)
  /-- The tokens before the end of the input are those of the segments of tokens, in order, each at
  the offset of its segment and written as it. -/
  tokens : ∃ front last, stream.tokens = front ++ [last] ∧ last.kind = .endOfInput ∧
    List.Forall₂ (IsSlice source)
      ((Segment.numbered 0 segments).filter fun place => place.2.isToken) front
  /-- Every character that nothing starts with is reported, once and at its offset, and nothing else
  is reported in these words. -/
  unexpected : stream.diagnostics.filter (tells "Unexpected character") =
    (Segment.numbered 0 segments).filterMap (unexpectedAt source)
  /-- Every block comment that reaches the end of the source without being closed is reported, once
  and at the offset where it starts, and nothing else is reported in these words. -/
  unclosed : stream.diagnostics.filter (tells "Unterminated block comment") =
    (Segment.numbered 0 segments).filterMap (unclosedAt source)

/-- The segments of a source account for all of its characters, its tokens, and what is reported
about characters and comments. -/
theorem lossless_of_ofString {source : String} {stream : TokenStream}
    (h : ofString source = .ok stream) :
    Lossless source.toList stream (Segment.ofText source.toList) := by
  obtain ⟨front, htokens, hslices⟩ := exists_slices h
  exact
    { text := Segment.flatMap_text_ofText _
      shaped := Segment.shaped_ofText _
      tokens := ⟨front, _, htokens, rfl, hslices⟩
      unexpected := filter_diagnostics h fun _ hm => filter_unexpected hm
      unclosed := filter_diagnostics h fun _ hm => filter_unclosed hm }

/-- A source with a character that nothing starts with, a directive mark, and a comment whose inner
comment is closed and which is not closed itself. -/
theorem lossless_unclosed :
    ∃ stream, ofString "1. ! ~ \"/*\" /*/ /* */" = .ok stream ∧
      Lossless "1. ! ~ \"/*\" /*/ /* */".toList stream
        (Segment.ofText "1. ! ~ \"/*\" /*/ /* */".toList) ∧
      stream.diagnostics =
        [⟨.error, .lexical (.unexpectedCharacter '~'), some ⟨1, 6, 5⟩⟩,
          ⟨.error, .lexical .unterminatedComment, some ⟨1, 13, 12⟩⟩] := by
  have hd : (ofString "1. ! ~ \"/*\" /*/ /* */").toOption.map TokenStream.diagnostics =
      some [⟨.error, .lexical (.unexpectedCharacter '~'), some ⟨1, 6, 5⟩⟩,
        ⟨.error, .lexical .unterminatedComment, some ⟨1, 13, 12⟩⟩] := by
    decide +kernel
  obtain ⟨stream, hs, he⟩ := exists_ok_of_map hd
  exact ⟨stream, hs, lossless_of_ofString hs, he⟩

end TokenStream

end Blueprint
