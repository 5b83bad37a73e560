import Blueprint.Proofs.Token.Stream
import Mathlib.Data.List.Forall2

/-!
# Tokens are slices of their source

While a source is read, the line and the column of a token are counted on from character to
character. They are what its offset alone determines, and at that offset the source has the text of
the token. Tokens follow each other without an overlap, and the end of the input stands behind the
last character.
-/

namespace Blueprint

/-! ## Segments and their offsets -/

namespace Segment

/-- Segments with the count of characters before each of them, from a count on. -/
def numbered (offset : Nat) : List Segment → List (Nat × Segment)
  | [] => []
  | segment :: rest => (offset, segment) :: numbered (offset + segment.text.length) rest

/-- Whether a segment is the text of a token. -/
def isToken : Segment → Bool
  | .lexeme _ _ | .literal _ => true
  | _ => false

/-- A segment with its offset is one of the segments, and has at least this offset. -/
theorem le_of_mem_numbered {offset : Nat} {segments : List Segment} {place : Nat × Segment}
    (h : place ∈ numbered offset segments) : place.2 ∈ segments ∧ offset ≤ place.1 := by
  induction segments generalizing offset with
  | nil => cases h
  | cons segment rest ih =>
    rw [numbered] at h
    rcases List.mem_cons.mp h with rfl | h
    · exact ⟨List.mem_cons_self, Nat.le_refl _⟩
    · obtain ⟨hm, hl⟩ := ih h
      exact ⟨List.mem_cons_of_mem _ hm, by omega⟩

/-- Every segment starts where an earlier one ends or later. -/
theorem pairwise_numbered (offset : Nat) (segments : List Segment) :
    (numbered offset segments).Pairwise
      fun first second => first.1 + first.2.text.length ≤ second.1 := by
  induction segments generalizing offset with
  | nil => exact .nil
  | cons segment rest ih =>
    rw [numbered]
    exact .cons (fun place hm => (le_of_mem_numbered hm).2) (ih _)

/-- At the offset of a segment the text has the characters of the segment. -/
theorem slice_of_mem_numbered {before : List Char} {segments : List Segment}
    {place : Nat × Segment} (h : place ∈ numbered before.length segments) :
    ∃ front back, place.1 = front.length ∧
      before ++ segments.flatMap text = front ++ place.2.text ++ back := by
  induction segments generalizing before with
  | nil => cases h
  | cons segment rest ih =>
    rw [numbered] at h
    rw [List.flatMap_cons]
    rcases List.mem_cons.mp h with rfl | h
    · exact ⟨before, rest.flatMap text, rfl, (List.append_assoc _ _ _).symm⟩
    · rw [← List.length_append] at h
      obtain ⟨front, back, hp, he⟩ := ih h
      refine ⟨front, back, hp, ?_⟩
      rw [← he, List.append_assoc]

/-- The places at which segments are read are the places of their offsets. -/
theorem placed_eq_numbered {source before : List Char} {segments : List Segment}
    (h : before ++ segments.flatMap text = source) :
    placed (Position.start.after before) segments =
      (numbered before.length segments).map
        fun place => (Position.ofOffset source place.1, place.2) := by
  induction segments generalizing before with
  | nil => rfl
  | cons segment rest ih =>
    rw [List.flatMap_cons, ← List.append_assoc] at h
    have hl : before.length ≤ source.length := by
      rw [← h, List.length_append, List.length_append]
      omega
    have hp : Position.ofOffset source before.length = Position.start.after before := by
      rw [Position.ofOffset_eq_after hl, ← h, List.append_assoc, List.take_left]
    rw [placed, numbered, List.map_cons, ← Position.after_append, ih h, List.length_append, hp]

/-- The places at which the segments of a source are read are the places of their offsets. -/
theorem placed_ofText (source : List Char) :
    placed Position.start (ofText source) =
      (numbered 0 (ofText source)).map
        fun place => (Position.ofOffset source place.1, place.2) :=
  @placed_eq_numbered source [] (ofText source) (flatMap_text_ofText source)

/-- A segment of a source has at least one character. -/
theorem text_ne_nil_of_mem {source : List Char} {segment : Segment}
    (h : segment ∈ ofText source) : segment.text ≠ [] := by
  obtain ⟨c, rest, rfl⟩ := exists_next_of_mem h
  exact text_next_ne_nil c rest

/-- Only the segments of tokens have a token. -/
theorem tokenAt_eq_none_iff {segment : Segment} {position : Position} :
    segment.tokenAt position = .ok none ↔ segment.isToken = false := by
  cases segment with
  | lexeme kind text =>
    refine ⟨fun h => ?_, fun h => Bool.noConfusion h⟩
    obtain ⟨_, _, he⟩ := tokenAt_lexeme_eq_ok_iff.mp h
    cases he
  | literal scanned =>
    refine ⟨fun h => ?_, fun h => Bool.noConfusion h⟩
    cases h
  | _ => exact ⟨fun _ => rfl, fun _ => rfl⟩

end Segment

/-! ## Tokens and their segments -/

namespace TokenStream

/-- The tokens of segments are those of the segments that have one, in their order. -/
theorem forall₂_tokensOf {placed : List (Position × Segment)} {tokens : List Token}
    (h : tokensOf placed = .ok tokens) :
    List.Forall₂ (fun place token => place.2.tokenAt place.1 = .ok (some token))
      (placed.filter fun place => place.2.isToken) tokens := by
  induction placed generalizing tokens with
  | nil =>
    cases h
    exact .nil
  | cons place rest ih =>
    obtain ⟨found, more, ht, hr, rfl⟩ := tokensOf_cons_eq_ok_iff.mp h
    cases found with
    | none =>
      rw [List.filter_cons, if_neg (Bool.eq_false_iff.mp (Segment.tokenAt_eq_none_iff.mp ht))]
      exact ih hr
    | some token =>
      have hs : place.2.isToken = true := by
        rw [← Bool.not_eq_false]
        intro hf
        rw [Segment.tokenAt_eq_none_iff.mpr hf] at ht
        cases ht
      rw [List.filter_cons, if_pos hs]
      exact .cons ht (ih hr)

/-- A token is that of a segment of a source at an offset. -/
structure IsSlice (source : List Char) (place : Nat × Segment) (token : Token) : Prop where
  /-- The token stands at the place of the offset. -/
  position : token.position = Position.ofOffset source place.1
  /-- The token is written as the segment. -/
  lexeme : token.lexeme = String.ofList place.2.text
  /-- The token is not the end of the input. -/
  kind_ne : token.kind ≠ .endOfInput
  /-- The segment has at least one character. -/
  text_ne : place.2.text ≠ []
  /-- The source has the segment at the offset. -/
  slice : ∃ front back, place.1 = front.length ∧ source = front ++ place.2.text ++ back

/-- The tokens of a source before the end of the input are the slices that its segments with tokens
cut out. -/
theorem exists_slices {source : List Char} {stream : TokenStream}
    (h : ofChars source = .ok stream) :
    ∃ tokens, stream.tokens = tokens ++ [.finish (Position.start.after source)] ∧
      List.Forall₂ (IsSlice source)
        ((Segment.numbered 0 (Segment.ofText source)).filter fun place => place.2.isToken)
        tokens := by
  obtain ⟨tokens, ht, rfl⟩ := ofChars_eq_ok_iff.mp h
  refine ⟨tokens, rfl, ?_⟩
  have hs := forall₂_tokensOf ht
  rw [Segment.placed_ofText, List.filter_map, List.forall₂_map_left_iff] at hs
  refine (List.forall₂_iff_zip.mpr ⟨hs.length_eq, fun {place token} hz => ?_⟩)
  have hm := (List.mem_filter.mp (List.of_mem_zip hz).1).1
  have hk := (List.forall₂_iff_zip.mp hs).2 hz
  have hin := (Segment.le_of_mem_numbered hm).1
  obtain ⟨hp, hl⟩ := Segment.place_of_tokenAt hk
  have hn := (Segment.kind_of_tokenAt hin hk).1
  have hslice := @Segment.slice_of_mem_numbered [] _ _ hm
  rw [List.nil_append, Segment.flatMap_text_ofText] at hslice
  exact ⟨hp, hl, hn, Segment.text_ne_nil_of_mem hin, hslice⟩

variable {source : List Char} {places : List (Nat × Segment)} {tokens : List Token}

/-- Every slice is that of a segment. -/
theorem exists_place (h : List.Forall₂ (IsSlice source) places tokens) {token : Token}
    (ht : token ∈ tokens) : ∃ place ∈ places, IsSlice source place token := by
  induction h with
  | nil => cases ht
  | cons hs _ ih =>
    rcases List.mem_cons.mp ht with rfl | ht
    · exact ⟨_, List.mem_cons_self, hs⟩
    · obtain ⟨place, hm, hp⟩ := ih ht
      exact ⟨place, List.mem_cons_of_mem _ hm, hp⟩

/-- A slice starts at the offset of its segment. -/
theorem IsSlice.offset_eq {place : Nat × Segment} {token : Token} (h : IsSlice source place token) :
    token.position.offset = place.1 := by
  rw [h.position]
  rfl

/-- A slice ends where its segment ends. -/
theorem IsSlice.endOffset_eq {place : Nat × Segment} {token : Token}
    (h : IsSlice source place token) :
    token.endOffset = (place.1 + place.2.text.length : Nat) := by
  rw [Token.endOffset, h.offset_eq, h.lexeme, String.length_ofList, Int.natCast_add]

/-- Slices of segments that do not overlap do not overlap. -/
theorem pairwise_slices (h : List.Forall₂ (IsSlice source) places tokens)
    (hp : places.Pairwise fun first second => first.1 + first.2.text.length ≤ second.1) :
    tokens.Pairwise fun first second => first.endOffset ≤ second.position.offset := by
  induction h with
  | nil => exact .nil
  | cons hs hrest ih =>
    obtain ⟨hfirst, hp⟩ := List.pairwise_cons.mp hp
    refine .cons (fun token ht => ?_) (ih hp)
    obtain ⟨place, hm, hplace⟩ := exists_place hrest ht
    have hle := hfirst place hm
    rw [hs.endOffset_eq, hplace.offset_eq]
    omega

/-- What a slice is written with stands in the source at its offset. -/
theorem IsSlice.lexeme_eq {place : Nat × Segment} {token : Token} (h : IsSlice source place token) :
    token.lexeme.toList =
      (source.drop token.position.offset.toNat).take token.lexeme.length := by
  obtain ⟨front, back, hp, he⟩ := h.slice
  rw [h.offset_eq, h.lexeme, String.length_ofList, String.toList_ofList, Int.toNat_natCast, hp, he,
    List.append_assoc, List.drop_left, List.take_left]

/-- A slice ends in the source. -/
theorem IsSlice.end_le {place : Nat × Segment} {token : Token} (h : IsSlice source place token) :
    token.endOffset ≤ source.length := by
  obtain ⟨front, back, hp, he⟩ := h.slice
  rw [h.endOffset_eq, hp, he, List.length_append, List.length_append]
  omega

/-- What holds of the tokens of a source and their places. -/
structure Sliced (source : List Char) (tokens : List Token) : Prop where
  /-- Line and column of every token are those of its offset, by the line feeds before it. -/
  positions : ∀ token ∈ tokens,
    Position.ofOffset? source token.position.offset = .ok token.position
  /-- Every token is written as the source is at its offset. -/
  lexemes : ∀ token ∈ tokens, token.lexeme.toList =
    (source.drop token.position.offset.toNat).take token.lexeme.length
  /-- Every token but the end of the input is written with at least one character. -/
  lexeme_ne : ∀ token ∈ tokens, token.kind ≠ .endOfInput → token.lexeme ≠ ""
  /-- A token starts where the tokens before it have ended. -/
  ordered : tokens.Pairwise fun first second => first.endOffset ≤ second.position.offset
  /-- The end of the input is the last token and no other, is written with nothing, and stands
  behind the last character. -/
  ends : ∃ (front : List Token) (last : Token), tokens = front ++ [last] ∧
    (∀ token ∈ front, token.kind ≠ .endOfInput) ∧
      last.kind = .endOfInput ∧ last.lexeme = "" ∧ last.position.offset = source.length

/-- The tokens of a source are slices of it. -/
theorem sliced_of_ofString {source : String} {stream : TokenStream}
    (h : ofString source = .ok stream) : Sliced source.toList stream.tokens := by
  obtain ⟨front, htokens, hslices⟩ := exists_slices h
  have hfront : ∀ token ∈ front, ∃ place, IsSlice source.toList place token := by
    intro token ht
    obtain ⟨place, _, hp⟩ := exists_place hslices ht
    exact ⟨place, hp⟩
  have hlast : (Token.finish (Position.start.after source.toList)).position.offset =
      source.toList.length := by
    rw [Token.finish, Position.after_offset]
    exact Int.zero_add _
  refine ⟨(placed_of_ofChars h).tokens, ?_, ?_, ?_, front, _, htokens, ?_, rfl, rfl, hlast⟩
  · intro token ht
    rw [htokens] at ht
    rcases List.mem_append.mp ht with ht | ht
    · obtain ⟨place, hp⟩ := hfront token ht
      exact hp.lexeme_eq
    · rw [List.mem_singleton.mp ht]
      rfl
  · intro token ht hk
    rw [htokens] at ht
    rcases List.mem_append.mp ht with ht | ht
    · obtain ⟨place, hp⟩ := hfront token ht
      rw [hp.lexeme]
      intro he
      exact hp.text_ne (by simpa using congrArg String.toList he)
    · exact absurd (by rw [List.mem_singleton.mp ht]; rfl) hk
  · rw [htokens, List.pairwise_append]
    refine ⟨pairwise_slices hslices ((Segment.pairwise_numbered _ _).filter _),
      List.pairwise_singleton _ _, ?_⟩
    intro token ht last hl
    obtain ⟨place, hp⟩ := hfront token ht
    rw [List.mem_singleton.mp hl, hlast]
    exact hp.end_le
  · intro token ht
    obtain ⟨place, hp⟩ := hfront token ht
    exact hp.kind_ne

/-- The tokens around a literal and a comment of several lines are slices of their source. -/
theorem sliced_lines :
    ∃ stream, ofString "a \"\"\"b\\\r\n c\"\"\" /* \n */\t1.5 -" = .ok stream ∧
      Sliced "a \"\"\"b\\\r\n c\"\"\" /* \n */\t1.5 -".toList stream.tokens ∧
      stream.tokens.map Token.position =
        [⟨1, 1, 0⟩, ⟨1, 3, 2⟩, ⟨3, 5, 23⟩, ⟨3, 9, 27⟩, ⟨3, 10, 28⟩] := by
  have hd : (ofString "a \"\"\"b\\\r\n c\"\"\" /* \n */\t1.5 -").toOption.map
      (fun stream => stream.tokens.map Token.position) =
      some [⟨1, 1, 0⟩, ⟨1, 3, 2⟩, ⟨3, 5, 23⟩, ⟨3, 9, 27⟩, ⟨3, 10, 28⟩] := by
    decide +kernel
  obtain ⟨stream, hs, he⟩ := exists_ok_of_map hd
  exact ⟨stream, hs, sliced_of_ofString hs, he⟩

end TokenStream

end Blueprint
