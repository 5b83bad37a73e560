import Blueprint.Proofs.Token.Seam

/-!
# Lines that start afresh

A line starts afresh if the line feed before it stands in no comment and no literal. Whatever is
written on it and below leaves the lines above as they are: they have the same tokens, even if
something is wrong with them. Only the wording of a faulty escape at the end of a line can change,
since the digits that are missed there are looked for on the next line.
-/

namespace Blueprint

open Blueprint.Text

/-! ## Literals -/

namespace Literal

/-- Two parts of a literal are written in the same way and stand for the same text. -/
structure Piece.Agrees (piece other : Piece) : Prop where
  /-- They are written in the same way. -/
  raw : piece.raw = other.raw
  /-- They stand for the same text. -/
  content : piece.content = other.content

/-- A part of a literal agrees with itself. -/
theorem Piece.Agrees.rfl {piece : Piece} : piece.Agrees piece := ⟨Eq.refl _, Eq.refl _⟩

variable {quote : Char} {triple : Bool} {c : Char} {rest more : List Char}

/-- A line feed is no digit, so no digits with one among them write a number. -/
theorem hexNumber?_of_mem {digits : List Char} (h : '\n' ∈ digits) : hexNumber? digits = none := by
  obtain ⟨front, back, rfl⟩ := List.append_of_mem h
  have hnone : ∀ text : List Char, text.foldl (fun (value : Option Nat) c => do
      return (← value) * 16 + (← hexValue? c)) none = none := by
    intro text
    induction text with
    | nil => rfl
    | cons c text ih => exact ih
  have hline : hexValue? '\n' = none := by decide
  rw [hexNumber?, List.foldl_append, List.foldl_cons, hline]
  convert hnone back using 2
  generalize List.foldl _ _ front = value
  cases value <;> rfl

/-- An escape by number whose digits reach across a line feed is kept as it is written. -/
theorem numericEscape_of_short (marker : Char) {width : Nat} (h : rest.length < width)
    (more : List Char) :
    (numericEscape marker width (rest ++ '\n' :: more)).Agrees
      ⟨['\\', marker], [.character '\\', .character marker], none⟩ := by
  have hm : '\n' ∈ (rest ++ '\n' :: more).take width := by
    obtain ⟨count, rfl⟩ := Nat.exists_eq_add_of_lt h
    rw [Nat.add_assoc, List.take_length_add_append]
    exact List.mem_append_right _ List.mem_cons_self
  unfold numericEscape
  dsimp only
  rw [hexNumber?_of_mem hm]
  split <;> exact ⟨rfl, rfl⟩

/-- An escape by number before a line feed does not depend on what stands behind. -/
theorem numericEscape_line (marker : Char) (width : Nat) (rest more others : List Char) :
    (numericEscape marker width (rest ++ '\n' :: more)).Agrees
      (numericEscape marker width (rest ++ '\n' :: others)) := by
  by_cases h : rest.length < width
  · have hm := numericEscape_of_short marker h more
    have ho := numericEscape_of_short marker h others
    exact ⟨hm.raw.trans ho.raw.symm, hm.content.trans ho.content.symm⟩
  · have ht : ∀ text, (rest ++ text).take width = rest.take width := fun text =>
      List.take_append_of_le_length (Nat.le_of_not_lt h)
    simp only [numericEscape, ht]
    exact .rfl

/-- An escape that ends before a line feed does not depend on what stands behind. -/
theorem escape_line (h : (escape (rest ++ '\n' :: more)).raw.length ≤ rest.length + 1)
    (others : List Char) :
    (escape (rest ++ '\n' :: more)).Agrees (escape (rest ++ '\n' :: others)) := by
  rcases rest with _ | ⟨first, rest⟩
  · exact absurd h (by simp [escape])
  · by_cases hu : first = 'u'
    · rw [hu]
      exact numericEscape_line ..
    by_cases hx : first = 'x'
    · rw [hx]
      exact numericEscape_line ..
    by_cases hr : first = '\r'
    · subst hr
      rcases rest with _ | ⟨second, rest⟩
      · exact absurd h (by simp [escape])
      · by_cases hs : second = '\n' <;> simp [escape, hs, Piece.Agrees.rfl]
    · by_cases hn : first = '\n'
      · rw [hn]
        exact .rfl
      · simp [escape, hr, Piece.Agrees.rfl]

/-- What stands next in a literal does not depend on what stands behind a line feed, unless it is a
part that reaches over it. -/
theorem next_line (hq : '\n' ≠ quote)
    (h : ∀ piece, next quote triple c (rest ++ '\n' :: more) = .inl piece →
      piece.raw.length ≤ rest.length + 1) (others : List Char) :
    Sum.LiftRel Piece.Agrees Eq (next quote triple c (rest ++ '\n' :: more))
      (next quote triple c (rest ++ '\n' :: others)) := by
  have hd : ∀ text, (delimiter quote triple).isPrefixOf (c :: (rest ++ '\n' :: text)) =
      (delimiter quote triple).isPrefixOf (c :: rest) :=
    fun text => delimiter_seam hq triple (c :: rest) text
  unfold next at h ⊢
  rw [hd] at h
  rw [hd, hd]
  split
  · split
    · exact .inr rfl
    · exact .inl .rfl
  · rename_i hc
    split
    · exact .inr rfl
    · rename_i hl
      split
      · rename_i he
        exact .inl (escape_line (h _ (by rw [if_neg hc, if_neg hl, if_pos he])) others)
      · exact .inl .rfl

/-- Parts that agree are written in the same way and stand for the same text. -/
theorem flatMap_of_agrees {pieces others : List Piece}
    (h : List.Forall₂ Piece.Agrees pieces others) :
    pieces.flatMap Piece.raw = others.flatMap Piece.raw ∧
      pieces.flatMap Piece.content = others.flatMap Piece.content := by
  induction h with
  | nil => exact ⟨rfl, rfl⟩
  | cons hp _ ih =>
    simp only [List.flatMap_cons]
    exact ⟨by rw [hp.raw, ih.1], by rw [hp.content, ih.2]⟩

/-- Where a literal ends before or at a line feed does not depend on what stands behind. -/
theorem ending_line {text : List Char} {ending : Ending} (hq : '\n' ≠ quote)
    (hs : text ++ '\n' :: more = c :: rest) (hn : next quote triple c rest = .inr ending)
    (others : List Char) :
    ∃ first after, text ++ '\n' :: others = first :: after ∧
      next quote triple first after = .inr ending := by
  rcases text with _ | ⟨first, text⟩
  · obtain ⟨rfl, rfl⟩ := List.cons.inj hs
    refine ⟨'\n', others, rfl, ?_⟩
    rw [← hn]
    simp [next, hq]
  · rw [List.cons_append] at hs
    obtain ⟨rfl, rfl⟩ := List.cons.inj hs
    have hl := next_line hq (fun piece hp => absurd (hn.symm.trans hp) Sum.inr_ne_inl) others
    rw [hn] at hl
    refine ⟨first, text ++ '\n' :: others, rfl, ?_⟩
    generalize next quote triple first (text ++ '\n' :: others) = found at hl
    cases hl with
    | inr he => rw [he]

/-- The parts of a literal that ends before a line feed do not depend on what stands behind. -/
theorem parts_line {text : List Char} (hq : '\n' ≠ quote)
    (h : ((parts quote triple (text ++ '\n' :: more)).1.flatMap Piece.raw ++
      (parts quote triple (text ++ '\n' :: more)).2.raw).length ≤ text.length)
    (others : List Char) :
    List.Forall₂ Piece.Agrees (parts quote triple (text ++ '\n' :: more)).1
        (parts quote triple (text ++ '\n' :: others)).1 ∧
      (parts quote triple (text ++ '\n' :: more)).2 =
        (parts quote triple (text ++ '\n' :: others)).2 := by
  generalize hs : text ++ '\n' :: more = source at h ⊢
  induction source using parts.induct quote triple generalizing text with
  | case1 => exact absurd (congrArg List.length hs) (by simp)
  | case2 c rest ending hn =>
    obtain ⟨first, after, ht, ho⟩ := ending_line hq hs hn others
    rw [ht, parts_of_ending hn, parts_of_ending ho]
    exact ⟨.nil, rfl⟩
  | case3 c rest piece hn ih =>
    rw [parts_of_piece hn] at h ⊢
    dsimp only at h ⊢
    rw [List.flatMap_cons, List.append_assoc, List.length_append] at h
    have hp : piece.raw.length ≤ text.length := Nat.le_of_add_right_le h
    rcases text with _ | ⟨first, text⟩
    · exact absurd (List.eq_nil_of_length_eq_zero (Nat.le_zero.mp hp)) (raw_ne_nil_of_next hn)
    rw [List.cons_append] at hs
    obtain ⟨rfl, rfl⟩ := List.cons.inj hs
    have hdrop : ∀ behind : List Char, (first :: (text ++ '\n' :: behind)).drop piece.raw.length =
        (first :: text).drop piece.raw.length ++ '\n' :: behind := by
      intro behind
      rw [← List.cons_append, List.drop_append_of_le_length hp]
    have hl := next_line hq (fun other ho => Sum.inl.inj (hn.symm.trans ho) ▸ hp) others
    rw [hn] at hl
    generalize ho : next quote triple first (text ++ '\n' :: others) = found at hl
    cases hl with
    | @inl _ twin ha =>
      rw [List.cons_append, parts_of_piece ho, ← ha.raw, hdrop others]
      obtain ⟨hrest, he⟩ := ih (hdrop more).symm (by rw [List.length_drop]; omega)
      exact ⟨.cons ha hrest, he⟩

/-- A literal that ends before a line feed does not depend on what stands behind, but for the
wording of what is wrong with it. -/
theorem scan_line (hq : '\n' ≠ quote)
    (h : (scan quote (rest ++ '\n' :: more)).raw.length ≤ rest.length + 1) (others : List Char) :
    (scan quote (rest ++ '\n' :: more)).raw = (scan quote (rest ++ '\n' :: others)).raw ∧
      (scan quote (rest ++ '\n' :: more)).content =
        (scan quote (rest ++ '\n' :: others)).content := by
  have hl := opening_le quote rest
  have hopening : 0 < (delimiter quote (opensTriple quote rest)).length := by
    unfold delimiter
    split <;> exact Nat.zero_lt_succ _
  unfold scan at h ⊢
  dsimp only at h ⊢
  rw [opensTriple_seam hq] at h
  rw [opensTriple_seam hq, opensTriple_seam hq]
  generalize delimiter quote (opensTriple quote rest) = opening at h hl hopening
  rw [List.drop_append_of_le_length hl] at h ⊢
  rw [List.drop_append_of_le_length hl]
  rw [List.append_assoc, List.length_append] at h
  have hbody : ((parts quote (opensTriple quote rest)
        (rest.drop (opening.length - 1) ++ '\n' :: more)).1.flatMap Piece.raw ++
      (parts quote (opensTriple quote rest)
        (rest.drop (opening.length - 1) ++ '\n' :: more)).2.raw).length ≤
      (rest.drop (opening.length - 1)).length := by
    rw [List.length_drop]
    omega
  obtain ⟨hp, he⟩ := parts_line hq hbody others
  obtain ⟨hr, hc⟩ := flatMap_of_agrees hp
  rw [hr, hc, he]
  exact ⟨rfl, rfl⟩

end Literal

/-! ## Segments -/

namespace Segment

/-- Two segments are written in the same way and have the same token. -/
structure Agrees (segment other : Segment) : Prop where
  /-- They are written in the same way. -/
  text : segment.text = other.text
  /-- They have the same token, wherever they stand. -/
  tokenAt : ∀ position, segment.tokenAt position = other.tokenAt position

/-- A segment agrees with itself. -/
theorem Agrees.rfl {segment : Segment} : segment.Agrees segment := ⟨Eq.refl _, fun _ => Eq.refl _⟩

/-- A comment that is not closed before a line feed reaches over it. -/
theorem commentBody_open {depth : Nat} {text : List Char} (more : List Char)
    (h : (commentBody depth text).2 = false) :
    text.length < (commentBody depth (text ++ '\n' :: more)).1.length := by
  induction depth, text using commentBody.induct with
  | case1 depth =>
    rw [List.nil_append, commentBody]
    · exact Nat.zero_lt_succ _
    all_goals simp
  | case2 depth rest body closed hb ih =>
    rw [commentBody] at h
    rw [List.cons_append, List.cons_append, commentBody]
    exact Nat.add_lt_add_right (ih h) 2
  | case3 rest => cases h
  | case4 depth rest body closed hb ih =>
    rw [commentBody] at h
    rw [List.cons_append, List.cons_append, commentBody]
    exact Nat.add_lt_add_right (ih h) 2
  | case5 depth c rest ho hz hs body closed hb ih =>
    have hstar : c = '/' → (rest ++ '\n' :: more).head? ≠ some '*' := by
      refine fun hc => head?_seam_ne rest more (by decide) fun hh => ?_
      obtain ⟨after, rfl⟩ := List.head?_eq_some_iff.mp hh
      exact ho after hc rfl
    have hslash : c = '*' → (rest ++ '\n' :: more).head? ≠ some '/' := by
      refine fun hc => head?_seam_ne rest more (by decide) fun hh => ?_
      obtain ⟨after, rfl⟩ := List.head?_eq_some_iff.mp hh
      cases depth with
      | zero => exact hz after rfl hc rfl
      | succ depth => exact hs depth after rfl hc rfl
    rw [commentBody] at h
    · rw [List.cons_append, commentBody]
      · exact Nat.add_lt_add_right (ih h) 1
      · exact fun after hc ha => hstar hc (by rw [ha]; rfl)
      · exact fun after _ hc ha => hslash hc (by rw [ha]; rfl)
      · exact fun _ after _ hc ha => hslash hc (by rw [ha]; rfl)
    all_goals assumption

/-- A segment that ends before a line feed does not depend on what stands behind, but for the
wording of what is wrong with it. -/
theorem next_line {c : Char} {rest more : List Char}
    (h : (next c (rest ++ '\n' :: more)).text.length ≤ rest.length + 1) (others : List Char) :
    (next c (rest ++ '\n' :: more)).Agrees (next c (rest ++ '\n' :: others)) := by
  by_cases hr : ∀ remark ∈ (next c rest).remarks, remark.issue.ofEnd = false
  · rw [next_seam more hr, next_seam others hr]
    exact .rfl
  · -- What more text could settle is wrong with comments and literals only.
    have hs := starts_next c rest
    generalize next c rest = segment at hr hs
    cases hs with
    | @blockComment body =>
      have hm := @Starts.blockComment (body ++ '\n' :: more)
      rw [List.cons_append, hm.next_eq] at h
      cases hc : (commentBody 0 body).2 with
      | true => exact absurd (fun remark hm => by rw [hc] at hm; cases hm) hr
      | false =>
        have hl := commentBody_open more hc
        simp only [text, List.length_cons] at h
        omega
    | literal hq =>
      have hn : '\n' ≠ c := by rcases hq with rfl | rfl <;> decide
      rw [(Starts.literal hq).next_eq] at h ⊢
      rw [(Starts.literal hq).next_eq]
      obtain ⟨hraw, hcontent⟩ := Literal.scan_line hn h others
      refine ⟨hraw, fun position => ?_⟩
      rw [tokenAt, tokenAt, hraw, hcontent]
    | number ho hd =>
      obtain ⟨kind, text, hk⟩ := exists_number c rest
      rw [hk] at hr
      exact absurd (fun remark hm => absurd hm List.not_mem_nil) hr
    | unexpected =>
      refine absurd (fun remark hm => ?_) hr
      cases List.mem_singleton.mp hm
      rfl
    | _ => exact absurd (fun remark hm => absurd hm List.not_mem_nil) hr

/-- If the line feed after a text is a segment of its own, it is one whatever stands behind it, and
the segments before it are the same but for the wording of what is wrong with them. -/
theorem ofText_line {first : List Char} {segments : List Segment}
    (h : ofText (first ++ ['\n']) = segments ++ [.blank '\n']) (more : List Char) :
    ∃ same, ofText (first ++ '\n' :: more) = same ++ .blank '\n' :: ofText more ∧
      List.Forall₂ Agrees segments same := by
  have hfirst : first = segments.flatMap text := by
    have ht := flatMap_text_ofText (first ++ ['\n'])
    rw [h, List.flatMap_append] at ht
    exact (List.append_cancel_right ht).symm
  induction segments generalizing first with
  | nil =>
    rw [hfirst]
    exact ⟨[], ofText_lineFeed more, .nil⟩
  | cons segment rest ih =>
    rcases first with _ | ⟨c, chars⟩
    · rw [List.nil_append, ofText_lineFeed, ofText] at h
      exact absurd (congrArg List.length h) (by simp)
    rw [List.cons_append, ofText] at h
    obtain ⟨hs, hr⟩ := List.cons.inj h
    have hsplit : c :: chars = segment.text ++ rest.flatMap text := by
      rw [hfirst, List.flatMap_cons]
    have hdrop : ∀ behind : List Char, (c :: (chars ++ behind)).drop segment.text.length =
        rest.flatMap text ++ behind := by
      intro behind
      rw [← List.cons_append, hsplit, List.append_assoc, List.drop_left]
    have hl : (next c (chars ++ ['\n'])).text.length ≤ chars.length + 1 := by
      have hlength := congrArg List.length hsplit
      rw [List.length_cons, List.length_append] at hlength
      rw [hs]
      omega
    have ha := next_line hl more
    rw [hs] at ha hr
    rw [hdrop] at hr
    obtain ⟨same, ho, hsame⟩ := ih hr rfl
    refine ⟨next c (chars ++ '\n' :: more) :: same, ?_, .cons ha hsame⟩
    rw [List.cons_append, ofText, ← ha.text, hdrop, ho]
    rfl

/-- Segments that agree are written in the same way. -/
theorem flatMap_text_of_agrees {segments others : List Segment}
    (h : List.Forall₂ Agrees segments others) : segments.flatMap text = others.flatMap text := by
  induction h with
  | nil => rfl
  | cons hs _ ih => rw [List.flatMap_cons, List.flatMap_cons, hs.text, ih]

end Segment

/-! ## Starts of lines -/

/-- A text behind which a line starts afresh: its last segment, if there is one, is a line feed. -/
def Fresh (before : List Char) : Prop :=
  ∀ segment ∈ (Segment.ofText before).getLast?, segment = .blank '\n'

/-- A line starts afresh at the start of the source, or behind a line feed that stands in no comment
and no literal. -/
theorem Fresh.eq_nil_or {before : List Char} (h : Fresh before) :
    before = [] ∨ ∃ first segments, before = first ++ ['\n'] ∧
      Segment.ofText before = segments ++ [.blank '\n'] ∧
      segments.flatMap Segment.text = first := by
  have ht := Segment.flatMap_text_ofText before
  rcases List.eq_nil_or_concat (Segment.ofText before) with hs | ⟨segments, last, hs⟩
  · rw [hs] at ht
    exact .inl ht.symm
  · have hlast : last = .blank '\n' := h last (by rw [hs]; simp)
    rw [hlast, List.concat_eq_append] at hs
    rw [hs, List.flatMap_append] at ht
    exact .inr ⟨_, segments, ht.symm, hs, rfl⟩

/-- Where a line starts afresh, what stands behind is read as it stands alone, and what stands
before it has the same tokens. -/
theorem Segment.ofText_fresh {before : List Char} (h : Fresh before) (more : List Char) :
    ∃ front, ofText (before ++ more) = front ++ ofText more ∧
      List.Forall₂ Agrees (ofText before) front := by
  rcases h.eq_nil_or with rfl | ⟨first, segments, rfl, hs, _⟩
  · exact ⟨[], rfl, by rw [ofText]; exact .nil⟩
  · obtain ⟨same, ho, ha⟩ := ofText_line hs more
    refine ⟨same ++ [.blank '\n'], ?_, ?_⟩
    · rw [List.append_assoc, List.singleton_append, ho, List.append_assoc]
      rfl
    · rw [hs]
      exact List.rel_append ha (.cons .rfl .nil)

namespace TokenStream

/-- Segments that agree have the same tokens. -/
theorem tokensOf_agrees {segments others : List Segment}
    (h : List.Forall₂ Segment.Agrees segments others) (position : Position) :
    tokensOf (Segment.placed position segments) = tokensOf (Segment.placed position others) := by
  induction h generalizing position with
  | nil => rfl
  | cons hs _ ih => simp only [Segment.placed, tokensOf, hs.tokenAt, hs.text, ih]

end TokenStream

end Blueprint
