import Blueprint.Proofs.Token.Next

/-!
# The segments make up the source

Every segment is a prefix of the text it is read from, so the segments of a source, one after the
other, are the source. What a lexeme is written with fits its kind: signs are written as they are
spelled, whole numbers with digits, and no lexeme is the end of the input.
-/

namespace Blueprint

/-! ## Literals -/

namespace Literal

/-- A character that stands for itself is read from the front. -/
theorem plain_raw_isPrefix (c : Char) (rest : List Char) : (plain c).raw <+: c :: rest :=
  ⟨rest, rfl⟩

/-- A numeric escape is read from the front. -/
theorem numericEscape_raw_isPrefix (marker : Char) (width : Nat) (rest : List Char) :
    (numericEscape marker width rest).raw <+: '\\' :: marker :: rest := by
  unfold numericEscape
  dsimp only
  split
  · exact ⟨rest, rfl⟩
  · split
    · exact ⟨rest.drop width, by simp⟩
    · exact ⟨rest, rfl⟩

/-- An escape is read from the front. -/
theorem escape_raw_isPrefix (rest : List Char) : (escape rest).raw <+: '\\' :: rest := by
  unfold escape
  split
  · exact List.prefix_rfl
  · exact ⟨_, rfl⟩
  · exact ⟨_, rfl⟩
  · exact numericEscape_raw_isPrefix _ _ _
  · exact numericEscape_raw_isPrefix _ _ _
  · split <;> exact ⟨_, rfl⟩

/-- A part of a literal is read from the front. -/
theorem raw_prefix_of_next {quote : Char} {triple : Bool} {c : Char} {rest : List Char}
    {piece : Piece} (h : next quote triple c rest = .inl piece) : piece.raw <+: c :: rest := by
  unfold next at h
  split at h
  · split at h
    · cases h
    · cases h
      exact plain_raw_isPrefix c rest
  · split at h
    · cases h
    · split at h
      · rename_i hc
        cases h
        rw [hc]
        exact escape_raw_isPrefix rest
      · cases h
        exact plain_raw_isPrefix c rest

/-- The ending of a literal is read from the front. -/
theorem ending_raw_prefix_of_next {quote : Char} {triple : Bool} {c : Char} {rest : List Char}
    {ending : Ending} (h : next quote triple c rest = .inr ending) :
    ending.raw <+: c :: rest := by
  unfold next at h
  split at h
  · split at h
    · rename_i hd
      cases h
      exact List.isPrefixOf_iff_prefix.mp hd
    · cases h
  · split at h
    · cases h
      exact List.nil_prefix
    · split at h <;> cases h

/-- Where the literal ends there are no further parts. -/
theorem parts_of_ending {quote : Char} {triple : Bool} {c : Char} {rest : List Char}
    {ending : Ending} (h : next quote triple c rest = .inr ending) :
    parts quote triple (c :: rest) = ([], ending) := by
  unfold parts
  split
  · rename_i other ho
    rw [h] at ho
    cases ho
    rfl
  · rename_i piece hp
    rw [h] at hp
    cases hp

/-- After a part come the parts of the text behind it. -/
theorem parts_of_piece {quote : Char} {triple : Bool} {c : Char} {rest : List Char}
    {piece : Piece} (h : next quote triple c rest = .inl piece) :
    parts quote triple (c :: rest) =
      (piece :: (parts quote triple ((c :: rest).drop piece.raw.length)).1,
        (parts quote triple ((c :: rest).drop piece.raw.length)).2) := by
  rw [parts]
  split
  · rename_i other ho
    rw [h] at ho
    cases ho
  · rename_i other ho
    rw [h] at ho
    cases ho
    rfl

/-- The parts of a literal and its ending are read from the front. -/
theorem parts_raw_isPrefix (quote : Char) (triple : Bool) (text : List Char) :
    (parts quote triple text).1.flatMap Piece.raw ++ (parts quote triple text).2.raw <+: text := by
  induction text using parts.induct quote triple with
  | case1 =>
    unfold parts
    exact List.prefix_rfl
  | case2 c rest ending h =>
    rw [parts_of_ending h]
    exact ending_raw_prefix_of_next h
  | case3 c rest piece h ih =>
    obtain ⟨front, hf⟩ := raw_prefix_of_next h
    obtain ⟨after, ha⟩ := ih
    rw [parts_of_piece h]
    refine ⟨after, ?_⟩
    dsimp only
    rw [List.flatMap_cons, List.append_assoc, List.append_assoc]
    rw [List.append_assoc] at ha
    rw [ha, ← hf, List.drop_left]

/-- A delimiter has at least one character. -/
theorem delimiter_length_pos (quote : Char) (triple : Bool) :
    0 < (delimiter quote triple).length := by
  unfold delimiter
  split <;> exact Nat.zero_lt_succ _

/-- The opening delimiter and the text behind it are the text that starts with the quote. -/
theorem delimiter_append_drop (quote : Char) (rest : List Char) :
    delimiter quote (opensTriple quote rest) ++
      rest.drop ((delimiter quote (opensTriple quote rest)).length - 1) = quote :: rest := by
  cases ht : opensTriple quote rest with
  | false => rfl
  | true =>
    obtain ⟨more, hm⟩ := List.isPrefixOf_iff_prefix.mp ht
    rw [← hm]
    rfl

/-- A literal is read from the front. -/
theorem scan_raw_isPrefix (quote : Char) (rest : List Char) :
    (scan quote rest).raw <+: quote :: rest := by
  obtain ⟨after, ha⟩ := parts_raw_isPrefix quote (opensTriple quote rest)
    (rest.drop ((delimiter quote (opensTriple quote rest)).length - 1))
  refine ⟨after, ?_⟩
  unfold scan
  dsimp only
  rw [List.append_assoc, List.append_assoc, ← List.append_assoc _ _ after, ha,
    delimiter_append_drop]

end Literal

/-! ## Segments -/

namespace Segment

/-- A comment is read from the front. -/
theorem commentBody_isPrefix (depth : Nat) (text : List Char) :
    (commentBody depth text).1 <+: text := by
  induction depth, text using commentBody.induct with
  | case1 => exact List.nil_prefix
  | case2 depth rest text closed h ih =>
    rw [commentBody, h]
    rw [h] at ih
    exact (List.prefix_append_right_inj ['/', '*']).mpr ih
  | case3 rest =>
    rw [commentBody]
    exact ⟨rest, rfl⟩
  | case4 depth rest text closed h ih =>
    rw [commentBody, h]
    rw [h] at ih
    exact (List.prefix_append_right_inj ['*', '/']).mpr ih
  | case5 depth c rest h₁ h₂ h₃ text closed h ih =>
    rw [commentBody, h]
    · rw [h] at ih
      exact (List.prefix_append_right_inj [c]).mpr ih
    all_goals assumption

/-- A number is read from the front. -/
theorem number_text_isPrefix (first : Char) (rest : List Char) :
    (number first rest).text <+: first :: rest := by
  have hw : first :: rest.takeWhile Char.isDigit ++ rest.dropWhile Char.isDigit =
      first :: rest := by
    rw [List.cons_append, List.takeWhile_append_dropWhile]
  unfold number
  dsimp only
  split
  · rename_i digit more hd
    rw [hd] at hw
    split
    · refine ⟨more.dropWhile Char.isDigit, ?_⟩
      rw [← hw]
      simp [text]
    · exact ⟨_, hw⟩
  · exact ⟨_, hw⟩

/-- A segment is read from the front. -/
theorem text_next_isPrefix (c : Char) (rest : List Char) : (next c rest).text <+: c :: rest := by
  have hs := starts_next c rest
  generalize next c rest = segment at hs
  cases hs with
  | @lineComment body =>
    exact (List.prefix_append_right_inj ['/', '/']).mpr (List.takeWhile_prefix _)
  | @blockComment body =>
    exact (List.prefix_append_right_inj ['/', '*']).mpr (commentBody_isPrefix 0 body)
  | @directive first more =>
    have hn : (first :: more).takeWhile Text.continuesWord <+: first :: more :=
      List.takeWhile_prefix _
    exact (List.prefix_append_right_inj ['!']).mpr hn
  | literal => exact Literal.scan_raw_isPrefix c rest
  | number => exact number_text_isPrefix c rest
  | word => exact (List.prefix_append_right_inj [c]).mpr (List.takeWhile_prefix _)
  | _ => exact ⟨_, rfl⟩

/-- The segments of a text, one after the other, are the text. -/
theorem flatMap_text_ofText (source : List Char) : (ofText source).flatMap text = source := by
  induction source using ofText.induct with
  | case1 =>
    unfold ofText
    rfl
  | case2 c rest segment ih =>
    obtain ⟨after, ha⟩ := text_next_isPrefix c rest
    rw [ofText, List.flatMap_cons, ih, ← ha, List.drop_left]

/-- What holds of every next segment and the text behind it holds of every segment of a source and
the segments behind it. -/
theorem forall_of_next {p : Segment → List Char → Prop}
    (hp : ∀ c rest, p (next c rest) ((c :: rest).drop (next c rest).text.length))
    (source : List Char) : ∀ (front back : List Segment) (segment : Segment),
      ofText source = front ++ segment :: back → p segment (back.flatMap text) := by
  induction source using ofText.induct with
  | case1 =>
    intro front back segment h
    rw [ofText] at h
    exact absurd h (by simp)
  | case2 c rest first ih =>
    intro front back segment h
    rw [ofText] at h
    cases front with
    | nil =>
      rw [List.nil_append] at h
      obtain ⟨rfl, rfl⟩ := List.cons.inj h
      rw [flatMap_text_ofText]
      exact hp c rest
    | cons _ front =>
      obtain ⟨_, h⟩ := List.cons.inj h
      exact ih front back segment h

/-! ## Lexemes -/

/-- The text of a lexeme fits its kind. -/
structure Fits (kind : Kind) (text : List Char) : Prop where
  /-- No lexeme is the end of the input. -/
  kind_ne : kind ≠ .endOfInput
  /-- A sign is written as it is spelled. -/
  sign : ∀ sign, kind = .sign sign → String.ofList text = sign.spelling
  /-- A whole number is written with digits. -/
  integer : kind = .integer → text ≠ [] ∧ ∀ c ∈ text, c.isDigit = true

/-- The sign that a character is has the character as its spelling. -/
theorem spelling_of_ofChar? {c : Char} {sign : Sign} (h : Sign.ofChar? c = some sign) :
    String.ofList [c] = sign.spelling := by
  unfold Sign.ofChar? at h
  split at h <;> first | (cases h; rfl) | cases h

/-- A lexeme that is a word of its own fits every kind but three. -/
theorem Fits.of_word {kind : Kind} {text : List Char} (hn : kind ≠ .endOfInput)
    (hs : ∀ sign, kind ≠ .sign sign) (hi : kind ≠ .integer) : Fits kind text :=
  ⟨hn, fun sign he => absurd he (hs sign), fun he => absurd he hi⟩

/-- A sign that is written as it is spelled fits. -/
theorem Fits.of_sign {sign : Sign} {text : List Char} (h : String.ofList text = sign.spelling) :
    Fits (.sign sign) text :=
  ⟨nofun, fun _ he => by cases he; exact h, nofun⟩

/-- The kind of a word fits. -/
theorem fits_wordKind (word : List Char) : Fits (wordKind word) word := by
  unfold wordKind
  split
  · exact .of_word nofun nofun nofun
  · split <;> exact .of_word nofun nofun nofun

/-- The kind of a directive fits. -/
theorem fits_directiveKind (name text : List Char) : Fits (directiveKind name) text := by
  unfold directiveKind
  split <;> exact .of_word nofun nofun nofun

/-- The lexeme of a number fits. -/
theorem fits_number {first : Char} {rest : List Char} (h : first.isDigit = true) {kind : Kind}
    {text : List Char} (he : number first rest = .lexeme kind text) : Fits kind text := by
  have hwhole : Fits .integer (first :: rest.takeWhile Char.isDigit) := by
    refine ⟨nofun, nofun, fun _ => ⟨List.cons_ne_nil _ _, ?_⟩⟩
    intro c hc
    rcases List.mem_cons.mp hc with rfl | hc
    · exact h
    · exact List.all_eq_true.mp List.all_takeWhile c hc
  unfold number at he
  dsimp only at he
  split at he
  · split at he
    · cases he
      exact .of_word nofun nofun nofun
    · cases he
      exact hwhole
  · cases he
    exact hwhole

/-- The lexeme that is read next fits its kind. -/
theorem fits_next {c : Char} {rest : List Char} {kind : Kind} {text : List Char}
    (he : next c rest = .lexeme kind text) : Fits kind text := by
  have hs := starts_next c rest
  generalize next c rest = segment at he hs
  cases hs with
  | sign hc =>
    cases he
    exact .of_sign (spelling_of_ofChar? hc)
  | directive =>
    cases he
    exact fits_directiveKind _ _
  | number _ hd => exact fits_number hd he
  | word =>
    cases he
    exact fits_wordKind _
  | arrow | minus | slash | bang =>
    cases he
    exact .of_sign rfl
  | _ => cases he

/-- The lexemes of a text fit their kinds. -/
theorem fits_of_mem_ofText {source : List Char} {kind : Kind} {text : List Char}
    (h : .lexeme kind text ∈ ofText source) : Fits kind text := by
  obtain ⟨c, rest, he⟩ := exists_next_of_mem h
  exact fits_next he.symm

end Segment

end Blueprint
