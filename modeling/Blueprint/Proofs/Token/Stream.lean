import Blueprint.Proofs.Token.Segment
import Blueprint.Token.Stream

/-!
# Where the tokens of a source stand

Every token, and everything that is reported about the characters of a source, has a place of the
source. The end of the input is the last token and no other. A source has tokens unless one of its
whole numbers has more digits than are read.
-/

namespace Blueprint

open Blueprint.Text

/-- A result of which something is known is a value. -/
theorem exists_ok_of_map {α β ε : Type} {result : Except ε α} {f : α → β} {value : β}
    (h : result.toOption.map f = some value) : ∃ found, result = .ok found ∧ f found = value := by
  cases result with
  | error failure => cases h
  | ok found => exact ⟨found, rfl, Option.some.inj h⟩

/-! ## Places -/

/-- A position is the place of its offset in a source. -/
def Position.InSource (source : List Char) (position : Position) : Prop :=
  Position.ofOffset? source position.offset = .ok position

/-- What reading a prefix of the source arrives at is a place of the source. -/
theorem Position.inSource_after {source front : List Char} (h : front <+: source) :
    (Position.start.after front).InSource source := by
  obtain ⟨rest, rfl⟩ := h
  have ho : (Position.start.after front).offset = front.length := by
    rw [after_offset]
    exact Int.zero_add _
  have hl : front.length ≤ (front ++ rest).length := by
    rw [List.length_append]
    omega
  rw [InSource, ho, ofOffset?_of_le hl, ofOffset_eq_after hl, List.take_left]

/-- A place of a source has an offset that is in the source. -/
theorem Position.InSource.offset_le {source : List Char} {position : Position}
    (h : position.InSource source) :
    0 ≤ position.offset ∧ position.offset ≤ source.length := by
  unfold InSource ofOffset? at h
  split at h
  · cases h
  · rename_i hc
    simp only [Bool.or_eq_true, decide_eq_true_eq, not_or] at hc
    omega

namespace Segment

/-- A segment with its place is one of the segments, and stands where reading the text before it
arrives. -/
theorem split_of_mem_placed {segments : List Segment} {start position : Position}
    {segment : Segment} (h : (position, segment) ∈ placed start segments) :
    segment ∈ segments ∧ ∃ front back, segments.flatMap text = front ++ segment.text ++ back ∧
      position = start.after front := by
  induction segments generalizing start with
  | nil => cases h
  | cons first rest ih =>
    rw [placed] at h
    rw [List.flatMap_cons]
    rcases List.mem_cons.mp h with he | h
    · cases he
      exact ⟨List.mem_cons_self, [], _, rfl, rfl⟩
    · obtain ⟨hm, front, back, hs, rfl⟩ := ih h
      refine ⟨List.mem_cons_of_mem _ hm, first.text ++ front, back, ?_, ?_⟩
      · rw [hs, List.append_assoc, List.append_assoc, List.append_assoc]
      · rw [Position.after_append]

/-- Every segment has its place among the placed ones. -/
theorem exists_mem_placed {segments : List Segment} {segment : Segment} (h : segment ∈ segments)
    (position : Position) : ∃ place, (place, segment) ∈ placed position segments := by
  induction segments generalizing position with
  | nil => cases h
  | cons first rest ih =>
    rw [placed]
    rcases List.mem_cons.mp h with rfl | h
    · exact ⟨position, List.mem_cons_self⟩
    · obtain ⟨place, hp⟩ := ih h (position.after first.text)
      exact ⟨place, List.mem_cons_of_mem _ hp⟩

/-- A segment of a source stands in it where reading has come to its place. -/
theorem place_of_mem_source {source : List Char} {position : Position} {segment : Segment}
    (h : (position, segment) ∈ placed Position.start (ofText source)) :
    segment ∈ ofText source ∧ ∃ front, position = Position.start.after front ∧
      front ++ segment.text <+: source := by
  obtain ⟨hm, front, back, hs, rfl⟩ := split_of_mem_placed h
  rw [flatMap_text_ofText] at hs
  exact ⟨hm, front, rfl, back, hs.symm⟩

/-! ## Tokens -/

/-- Digits of the first script have values. -/
theorem isSome_decimalValue?_of_isDigit {c : Char} (h : c.isDigit = true) :
    (decimalValue? c).isSome = true := by
  have hc : 48 ≤ c.toNat ∧ c.toNat < 58 := by
    simp only [Char.isDigit, Bool.and_eq_true, decide_eq_true_eq] at h
    have h₁ := UInt32.le_iff_toNat_le.mp h.1
    have h₂ := UInt32.le_iff_toNat_le.mp h.2
    exact ⟨h₁, Nat.lt_succ_of_le h₂⟩
  unfold decimalValue?
  rw [Option.isSome_map, List.find?_isSome]
  exact ⟨48, List.mem_cons_self, by simpa using hc⟩

/-- A numeral of such digits is refused exactly if it is too long. -/
theorem read_eq_error_iff {digits : List Char} (hn : digits ≠ [])
    (hd : ∀ c ∈ digits, c.isDigit = true) :
    (∃ fault, Number.read digits = .error fault) ↔ Number.digitLimit < digits.length := by
  have hall : (digits.map decimalValue?).takeWhile Option.isSome = digits.map decimalValue? := by
    have hv : ∀ value ∈ digits.map decimalValue?, Option.isSome value = true := by
      intro value hm
      obtain ⟨c, hc, rfl⟩ := List.mem_map.mp hm
      exact isSome_decimalValue?_of_isDigit (hd c hc)
    rw [← List.append_nil (digits.map decimalValue?), List.takeWhile_append_of_pos hv,
      List.takeWhile_nil]
  unfold Number.read
  dsimp only
  rw [hall, List.length_map]
  constructor
  · rintro ⟨fault, hf⟩
    refine Nat.lt_of_not_le fun hl => ?_
    rw [if_neg (Nat.not_lt.mpr hl), if_pos (by simpa using hn)] at hf
    cases hf
  · intro hl
    rw [if_pos hl]
    exact ⟨_, rfl⟩

/-- Only a whole number with too many digits is no token. -/
theorem tokenAt_eq_error_iff {source : List Char} {segment : Segment}
    (h : segment ∈ ofText source) (position : Position) :
    (∃ fault, segment.tokenAt position = .error fault) ↔
      ∃ digits, segment = .lexeme .integer digits ∧ Number.digitLimit < digits.length := by
  cases segment with
  | lexeme kind text =>
    by_cases hk : kind = .integer
    · subst hk
      have hf := (fits_of_mem_ofText h).integer rfl
      have hr := read_eq_error_iff hf.1 hf.2
      constructor
      · rintro ⟨fault, he⟩
        refine ⟨text, rfl, hr.mp ?_⟩
        cases hv : Number.read text with
        | error other => exact ⟨other, rfl⟩
        | ok number =>
          simp only [tokenAt, valueOf, hv] at he
          cases he
      · rintro ⟨digits, he, hl⟩
        cases he
        obtain ⟨fault, hv⟩ := hr.mpr hl
        refine ⟨fault, ?_⟩
        simp only [tokenAt, valueOf, hv]
        rfl
    · constructor
      · rintro ⟨fault, he⟩
        have hv : ∃ value, valueOf kind text = .ok value := by
          unfold valueOf
          split
          · exact absurd rfl hk
          all_goals exact ⟨_, rfl⟩
        obtain ⟨value, hv⟩ := hv
        simp only [tokenAt, hv] at he
        cases he
      · rintro ⟨digits, he, _⟩
        cases he
        exact absurd rfl hk
  | literal scanned =>
    exact ⟨fun ⟨_, he⟩ => (by cases he), fun ⟨_, he, _⟩ => (by cases he)⟩
  | _ => exact ⟨fun ⟨_, he⟩ => (by cases he), fun ⟨_, he, _⟩ => (by cases he)⟩

/-- A lexeme that has a value has one token, of its kind. -/
theorem tokenAt_lexeme_eq_ok_iff {kind : Kind} {text : List Char} {position : Position}
    {token? : Option Token} :
    (lexeme kind text).tokenAt position = .ok token? ↔
      ∃ value, valueOf kind text = .ok value ∧
        token? = some ⟨kind, String.ofList text, position, value⟩ := by
  rw [tokenAt]
  cases valueOf kind text with
  | error fault =>
    constructor
    · intro h
      cases h
    · rintro ⟨_, he, _⟩
      cases he
  | ok value =>
    constructor
    · intro h
      cases h
      exact ⟨value, rfl, rfl⟩
    · rintro ⟨_, he, rfl⟩
      cases he
      rfl

/-- The token of a segment stands at the place of the segment and is written as it. -/
theorem place_of_tokenAt {segment : Segment} {position : Position} {token : Token}
    (h : segment.tokenAt position = .ok (some token)) :
    token.position = position ∧ token.lexeme = String.ofList segment.text := by
  cases segment with
  | lexeme kind text =>
    obtain ⟨_, _, he⟩ := tokenAt_lexeme_eq_ok_iff.mp h
    cases he
    exact ⟨rfl, rfl⟩
  | literal scanned =>
    cases h
    exact ⟨rfl, rfl⟩
  | _ => cases h

/-- The token of a segment of a source is not the end of the input, and a sign is written as it is
spelled. -/
theorem kind_of_tokenAt {source : List Char} {segment : Segment} {position : Position}
    {token : Token} (h : segment ∈ ofText source)
    (ht : segment.tokenAt position = .ok (some token)) :
    token.kind ≠ .endOfInput ∧ ∀ sign, token.kind = .sign sign → token.lexeme = sign.spelling := by
  cases segment with
  | lexeme kind text =>
    have hf := fits_of_mem_ofText h
    obtain ⟨_, _, he⟩ := tokenAt_lexeme_eq_ok_iff.mp ht
    cases he
    exact ⟨hf.kind_ne, hf.sign⟩
  | literal scanned =>
    cases ht
    exact ⟨nofun, nofun⟩
  | _ => cases ht

end Segment

namespace TokenStream

/-- Segments have no tokens exactly if one of them has none. -/
theorem tokensOf_eq_error_iff {placed : List (Position × Segment)} :
    (∃ fault, tokensOf placed = .error fault) ↔
      ∃ place ∈ placed, ∃ fault, place.2.tokenAt place.1 = .error fault := by
  induction placed with
  | nil => exact ⟨fun ⟨_, he⟩ => (by cases he), fun ⟨_, hm, _⟩ => (by cases hm)⟩
  | cons place rest ih =>
    obtain ⟨position, segment⟩ := place
    cases ht : segment.tokenAt position with
    | error fault =>
      refine ⟨fun _ => ⟨_, List.mem_cons_self, fault, ht⟩, fun _ => ⟨fault, ?_⟩⟩
      simp only [tokensOf, ht]
      rfl
    | ok token =>
      have hrest : (∃ fault, tokensOf ((position, segment) :: rest) = .error fault) ↔
          ∃ fault, tokensOf rest = .error fault := by
        simp only [tokensOf, ht]
        cases tokensOf rest with
        | error fault => exact ⟨fun _ => ⟨_, rfl⟩, fun _ => ⟨_, rfl⟩⟩
        | ok tokens => exact ⟨fun ⟨_, he⟩ => (by cases he), fun ⟨_, he⟩ => (by cases he)⟩
      rw [hrest, ih]
      constructor
      · rintro ⟨other, hm, he⟩
        exact ⟨other, List.mem_cons_of_mem _ hm, he⟩
      · rintro ⟨other, hm, fault, he⟩
        rcases List.mem_cons.mp hm with rfl | hm
        · rw [ht] at he
          cases he
        · exact ⟨other, hm, fault, he⟩

/-- Segments have tokens if the first one has one or none, and the others have theirs. -/
theorem tokensOf_cons_eq_ok_iff {place : Position × Segment} {rest : List (Position × Segment)}
    {tokens : List Token} :
    tokensOf (place :: rest) = .ok tokens ↔
      ∃ first more, place.2.tokenAt place.1 = .ok first ∧ tokensOf rest = .ok more ∧
        tokens = first.toList ++ more := by
  obtain ⟨position, segment⟩ := place
  rw [tokensOf]
  cases segment.tokenAt position with
  | error fault =>
    constructor
    · intro h
      cases h
    · rintro ⟨_, _, he, _⟩
      cases he
  | ok first =>
    cases tokensOf rest with
    | error fault =>
      constructor
      · intro h
        cases h
      · rintro ⟨_, _, _, he, _⟩
        cases he
    | ok more =>
      constructor
      · intro h
        cases h
        exact ⟨first, more, rfl, rfl, rfl⟩
      · rintro ⟨_, _, hf, hm, rfl⟩
        cases hf
        cases hm
        rfl

/-- The tokens of segments are each the token of one of them. -/
theorem tokenAt_of_mem_tokensOf {placed : List (Position × Segment)} {tokens : List Token}
    (h : tokensOf placed = .ok tokens) {token : Token} (hm : token ∈ tokens) :
    ∃ place ∈ placed, place.2.tokenAt place.1 = .ok (some token) := by
  induction placed generalizing tokens with
  | nil =>
    cases h
    cases hm
  | cons place rest ih =>
    obtain ⟨first, more, ht, hr, rfl⟩ := tokensOf_cons_eq_ok_iff.mp h
    rcases List.mem_append.mp hm with hm | hm
    · refine ⟨_, List.mem_cons_self, ?_⟩
      rw [Option.mem_toList.mp hm] at ht
      exact ht
    · obtain ⟨other, ho, he⟩ := ih hr hm
      exact ⟨other, List.mem_cons_of_mem _ ho, he⟩

/-- A source has no tokens exactly if one of its whole numbers has more digits than are read. -/
theorem ofChars_eq_error_iff (source : List Char) :
    (∃ fault, ofChars source = .error fault) ↔
      ∃ digits, .lexeme .integer digits ∈ Segment.ofText source ∧
        Number.digitLimit < digits.length := by
  have he : (∃ fault, ofChars source = .error fault) ↔
      ∃ fault, tokensOf (Segment.placed Position.start (Segment.ofText source)) =
        .error fault := by
    unfold ofChars
    dsimp only
    cases tokensOf (Segment.placed Position.start (Segment.ofText source)) with
    | error fault => exact ⟨fun _ => ⟨_, rfl⟩, fun _ => ⟨_, rfl⟩⟩
    | ok tokens => exact ⟨fun ⟨_, he⟩ => (by cases he), fun ⟨_, he⟩ => (by cases he)⟩
  rw [he, tokensOf_eq_error_iff]
  constructor
  · rintro ⟨⟨position, segment⟩, hm, hf⟩
    have hs := (Segment.place_of_mem_source hm).1
    obtain ⟨digits, rfl, hl⟩ := (Segment.tokenAt_eq_error_iff hs position).mp hf
    exact ⟨digits, hs, hl⟩
  · rintro ⟨digits, hm, hl⟩
    obtain ⟨position, hp⟩ := Segment.exists_mem_placed hm Position.start
    exact ⟨_, hp, (Segment.tokenAt_eq_error_iff hm position).mpr ⟨digits, rfl, hl⟩⟩

/-- Reading a source yields the tokens of its segments, the end of the input, and what is wrong with
its segments. -/
theorem ofChars_eq_ok_iff {source : List Char} {stream : TokenStream} :
    ofChars source = .ok stream ↔
      ∃ tokens, tokensOf (Segment.placed Position.start (Segment.ofText source)) = .ok tokens ∧
        stream = ⟨tokens ++ [.finish (Position.start.after source)],
          (Segment.placed Position.start (Segment.ofText source)).flatMap
            fun (position, segment) => diagnosticsAt position segment⟩ := by
  unfold ofChars
  dsimp only
  cases tokensOf (Segment.placed Position.start (Segment.ofText source)) with
  | error fault =>
    constructor
    · intro h
      cases h
    · rintro ⟨_, he, _⟩
      cases he
  | ok tokens =>
    constructor
    · intro h
      cases h
      exact ⟨tokens, rfl, rfl⟩
    · rintro ⟨_, he, rfl⟩
      cases he
      rfl

/-- What holds of the tokens of a source. -/
structure Placed (source : List Char) (stream : TokenStream) : Prop where
  /-- The end of the input stands at the end of the source, after all other tokens. -/
  ends : ∃ front, stream.tokens = front ++ [.finish (Position.start.after source)] ∧
    ∀ token ∈ front, token.kind ≠ .endOfInput
  /-- Signs are written as they are spelled. -/
  spelled : ∀ token ∈ stream.tokens, ∀ sign, token.kind = .sign sign →
    token.lexeme = sign.spelling
  /-- Every token has a place of the source. -/
  tokens : ∀ token ∈ stream.tokens, token.position.InSource source
  /-- Everything that is reported has a place of the source. -/
  diagnostics : ∀ diagnostic ∈ stream.diagnostics, ∃ position,
    diagnostic.position = some position ∧ position.InSource source

/-- The tokens of a source have places, and so has what is reported about its characters. -/
theorem placed_of_ofChars {source : List Char} {stream : TokenStream}
    (h : ofChars source = .ok stream) : stream.Placed source := by
  obtain ⟨tokens, ht, rfl⟩ := ofChars_eq_ok_iff.mp h
  have hfront : ∀ token ∈ tokens, token.position.InSource source ∧
      token.kind ≠ .endOfInput ∧
      ∀ sign, token.kind = .sign sign → token.lexeme = sign.spelling := by
    intro token hm
    obtain ⟨⟨position, segment⟩, hp, hk⟩ := tokenAt_of_mem_tokensOf ht hm
    obtain ⟨hs, front, rfl, hf⟩ := Segment.place_of_mem_source hp
    rw [(Segment.place_of_tokenAt hk).1]
    exact ⟨Position.inSource_after ((List.prefix_append _ _).trans hf),
      Segment.kind_of_tokenAt hs hk⟩
  refine ⟨⟨tokens, rfl, fun token hm => (hfront token hm).2.1⟩, ?_, ?_, ?_⟩
  · intro token hm
    rcases List.mem_append.mp hm with hm | hm
    · exact (hfront token hm).2.2
    · rw [List.mem_singleton.mp hm]
      nofun
  · intro token hm
    rcases List.mem_append.mp hm with hm | hm
    · exact (hfront token hm).1
    · rw [List.mem_singleton.mp hm]
      exact Position.inSource_after List.prefix_rfl
  · intro diagnostic hm
    obtain ⟨⟨position, segment⟩, hp, hd⟩ := List.mem_flatMap.mp hm
    obtain ⟨_, front, rfl, hf⟩ := Segment.place_of_mem_source hp
    obtain ⟨remark, _, rfl⟩ := List.mem_map.mp hd
    refine ⟨_, rfl, ?_⟩
    rw [← Position.after_append]
    have ht : segment.text.take remark.distance <+: segment.text := List.take_prefix _ _
    exact Position.inSource_after (((List.prefix_append_right_inj front).mpr ht).trans hf)

end TokenStream

end Blueprint
