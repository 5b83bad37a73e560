import Blueprint.Proofs.Token.Lines
import Mathlib.Data.List.TakeWhile

/-!
# Tokens show where they end

The segment of a token is found from its own characters, and the last of them shows that it is the
last: it closes a literal, or what continues the token has to touch it. So a token is read the same
whatever stood behind it in its source, as long as a blank or nothing stands there now. A literal
must be free of errors for that: one that is not closed ends where its source ends, and a faulty
escape is worded with the characters behind it.
-/

namespace Blueprint

open Blueprint.Text

/-! ## Looking ahead to a blank -/

/-- A text that is empty or starts with a blank. -/
def Parted (text : List Char) : Prop := ∀ c ∈ text.head?, Segment.separates c = true

/-- The end of the source parts what stands before it. -/
theorem parted_nil : Parted [] := nofun

/-- A blank parts what stands before it from what stands behind. -/
theorem parted_cons {c : Char} (h : Segment.separates c = true) (more : List Char) :
    Parted (c :: more) := by
  intro first hf
  cases hf
  exact h

/-- What is true of the four blanks is true of the character that a parted text starts with. -/
theorem Parted.elim {text : List Char} (h : Parted text) {p : Char → Prop} (hs : p ' ')
    (ht : p '\t') (hr : p '\r') (hn : p '\n') : ∀ c ∈ text.head?, p c := by
  intro c hc
  have hb := h c hc
  simp only [Segment.separates, Bool.or_eq_true, beq_iff_eq] at hb
  rcases hb with ((rfl | rfl) | rfl) | rfl <;> assumption

/-- A parted text does not start with a character that is no blank. -/
theorem Parted.head?_ne {text : List Char} (h : Parted text) {c : Char}
    (hc : Segment.separates c = false) : text.head? ≠ some c := by
  intro he
  rw [h c he] at hc
  cases hc

section Ahead

variable {accepts : Char → Bool} {front after : List Char}

/-- Of an accepted text and one that starts with nothing accepted, the first is taken. -/
theorem takeWhile_parted (hf : ∀ c ∈ front, accepts c = true)
    (ha : ∀ c ∈ after.head?, accepts c = false) : (front ++ after).takeWhile accepts = front := by
  rw [List.takeWhile_append_of_pos hf]
  cases after with
  | nil => rw [List.takeWhile_nil, List.append_nil]
  | cons c more =>
    rw [List.takeWhile_cons_of_neg (Bool.eq_false_iff.mp (ha c rfl)), List.append_nil]

/-- Of an accepted text and one that starts with nothing accepted, the second is left. -/
theorem dropWhile_parted (hf : ∀ c ∈ front, accepts c = true)
    (ha : ∀ c ∈ after.head?, accepts c = false) : (front ++ after).dropWhile accepts = after := by
  have hw := (front ++ after).takeWhile_append_dropWhile (p := accepts)
  rw [takeWhile_parted hf ha] at hw
  exact List.append_cancel_left hw

/-- A sign that stands at the front of a text and what parts it stands at the front of the text. -/
theorem isPrefixOf_parted {sign : List Char} (hs : ∀ c ∈ sign, Segment.separates c = false)
    (ha : Parted after) : sign.isPrefixOf (front ++ after) = sign.isPrefixOf front := by
  induction sign generalizing front with
  | nil => rfl
  | cons mark signs ih =>
    obtain ⟨hm, hs⟩ := List.forall_mem_cons.mp hs
    cases front with
    | cons c rest => simp only [List.cons_append, List.isPrefixOf, ih hs]
    | nil =>
      cases after with
      | nil => rfl
      | cons c rest =>
        have hne : mark ≠ c := by
          rintro rfl
          rw [ha mark rfl] at hm
          cases hm
        simp [List.isPrefixOf, hne]

end Ahead

/-! ## Literals -/

namespace Literal

variable {quote c : Char} {triple : Bool} {front back : List Char} {piece : Piece}
  {closing : List Char}

/-- An escape by number takes its backslash and its marker. -/
theorem two_le_numericEscape (marker : Char) (width : Nat) (rest : List Char) :
    2 ≤ (numericEscape marker width rest).raw.length := by
  unfold numericEscape
  dsimp only
  repeat' split
  all_goals simp only [List.length_cons]; omega

/-- An escape by number with which nothing is wrong is read from its own digits. -/
theorem numericEscape_cut {marker : Char} {width : Nat}
    (hl : (numericEscape marker width (front ++ back)).raw.length ≤ front.length + 2)
    (hw : ∀ issue ∈ (numericEscape marker width (front ++ back)).issue, issue.isWarning = true)
    (after : List Char) :
    numericEscape marker width (front ++ after) = numericEscape marker width (front ++ back) := by
  have hwidth : width ≤ front.length := by
    unfold numericEscape at hl hw
    dsimp only at hl hw
    split at hl
    · rename_i hshort
      rw [if_pos hshort] at hw
      cases hw _ rfl
    · rename_i hlong
      rw [if_neg hlong] at hw
      split at hl
      · rw [List.length_take] at hlong
        simp only [List.length_cons, List.length_take] at hl
        omega
      · rename_i hn
        rw [hn] at hw
        cases hw _ rfl
  have htake : ∀ behind : List Char, (front ++ behind).take width = front.take width :=
    fun behind => List.take_append_of_le_length hwidth
  simp only [numericEscape, htake]

/-- An escape takes its backslash and the character behind it. -/
theorem two_le_escape (c : Char) (rest : List Char) : 2 ≤ (escape (c :: rest)).raw.length := by
  unfold escape
  split
  · rename_i he
    cases he
  · exact Nat.le_refl 2
  · exact Nat.le_succ 2
  · exact two_le_numericEscape ..
  · exact two_le_numericEscape ..
  · split <;> exact Nat.le_refl 2

/-- An escape that is not the last of a text is read the same whatever stands behind the text,
unless an error is reported about it. -/
theorem escape_cut (hl : (escape (front ++ back)).raw.length ≤ front.length)
    (hw : ∀ issue ∈ (escape (front ++ back)).issue, issue.isWarning = true) (after : List Char) :
    escape (front ++ after) = escape (front ++ back) := by
  rcases front with _ | ⟨first, rest⟩
  · exact absurd (List.length_eq_zero_iff.mp (Nat.le_zero.mp hl)) (escape_raw_ne_nil _)
  rw [List.cons_append] at hl hw ⊢
  rw [List.cons_append]
  by_cases hu : first = 'u'
  · subst hu
    exact numericEscape_cut (Nat.le_succ_of_le hl) hw after
  by_cases hx : first = 'x'
  · subst hx
    exact numericEscape_cut (Nat.le_succ_of_le hl) hw after
  by_cases hr : first = '\r'
  · -- Whether the carriage return is the first half of a line end is seen in the text.
    subst hr
    rcases rest with _ | ⟨second, rest⟩
    · exact absurd (Nat.le_trans (two_le_escape '\r' back) hl) (by decide)
    · by_cases hs : second = '\n' <;> simp [escape, hs]
  · by_cases hn : first = '\n'
    · rw [hn]
      rfl
    · simp [escape, hr]

/-- Whether a delimiter stands at the front is seen in a text that has room for it. -/
theorem delimiter_cut (hl : (delimiter quote triple).length ≤ front.length + 1)
    (behind : List Char) :
    (delimiter quote triple).isPrefixOf (c :: (front ++ behind)) =
      (delimiter quote triple).isPrefixOf (c :: front) := by
  have hp : c :: front <+: c :: (front ++ behind) := List.prefix_append (c :: front) behind
  rw [Bool.eq_iff_iff, List.isPrefixOf_iff_prefix, List.isPrefixOf_iff_prefix]
  exact ⟨fun hd => List.prefix_of_prefix_length_le hd hp hl, fun hd => hd.trans hp⟩

/-- The closing delimiter is found whatever stands behind a text that has room for it. -/
theorem next_cut_closed (hn : next quote triple c (front ++ back) = .inr (.closed closing))
    (hl : (delimiter quote triple).length ≤ front.length + 1) (after : List Char) :
    next quote triple c (front ++ after) = .inr (.closed closing) := by
  unfold next at hn ⊢
  rw [delimiter_cut hl] at hn ⊢
  split at hn
  · rename_i hc
    rw [if_pos hc]
    exact hn
  · repeat' split at hn
    all_goals cases hn

/-- A part of a literal is read the same whatever stands behind a text that has room for the part
and a closing delimiter. -/
theorem next_cut (hn : next quote triple c (front ++ back) = .inl piece)
    (hl : piece.raw.length + (delimiter quote triple).length ≤ front.length + 1)
    (hw : ∀ issue ∈ piece.issue, issue.isWarning = true) (after : List Char) :
    next quote triple c (front ++ after) = .inl piece := by
  have hdelimiter := delimiter_length_pos quote triple
  unfold next at hn ⊢
  rw [delimiter_cut (by omega)] at hn ⊢
  split at hn
  · rename_i hc
    rw [if_pos hc]
    exact hn
  · rename_i hc
    rw [if_neg hc]
    split at hn
    · cases hn
    · rename_i hline
      rw [if_neg hline]
      split at hn
      · rename_i he
        cases hn
        rw [if_pos he, escape_cut (by omega) hw after]
      · rename_i he
        rw [if_neg he]
        exact hn

/-- A literal that is closed in a text has the same parts whatever stands behind the text, if its
escapes are known or kept as they are written. -/
theorem parts_cut (hc : (parts quote triple (front ++ back)).2 = .closed closing)
    (hl : ((parts quote triple (front ++ back)).1.flatMap Piece.raw).length +
      (delimiter quote triple).length ≤ front.length)
    (hw : ∀ piece ∈ (parts quote triple (front ++ back)).1, ∀ issue ∈ piece.issue,
      issue.isWarning = true) (after : List Char) :
    parts quote triple (front ++ after) = parts quote triple (front ++ back) := by
  have hdelimiter := delimiter_length_pos quote triple
  generalize hs : front ++ back = source at hc hl hw ⊢
  induction source using parts.induct quote triple generalizing front with
  | case1 =>
    rw [parts] at hc
    cases hc
  | case2 c rest ending hn =>
    rcases front with _ | ⟨first, front⟩
    · exact absurd hl (by rw [List.length_nil]; omega)
    rw [List.cons_append] at hs ⊢
    obtain ⟨rfl, rfl⟩ := List.cons.inj hs
    rw [parts_of_ending hn] at hc hl ⊢
    obtain rfl : ending = .closed closing := hc
    exact parts_of_ending (next_cut_closed hn (by simpa using hl) after)
  | case3 c rest piece hn ih =>
    rcases front with _ | ⟨first, front⟩
    · exact absurd hl (by rw [List.length_nil]; omega)
    rw [List.cons_append] at hs ⊢
    obtain ⟨rfl, rfl⟩ := List.cons.inj hs
    rw [parts_of_piece hn] at hc hl hw ⊢
    rw [List.flatMap_cons, List.length_append, List.length_cons] at hl
    have hsame := next_cut hn (by omega) (hw piece List.mem_cons_self) after
    have hdrop : ∀ behind : List Char, (first :: (front ++ behind)).drop piece.raw.length =
        (first :: front).drop piece.raw.length ++ behind := by
      intro behind
      rw [← List.cons_append, List.drop_append_of_le_length (by rw [List.length_cons]; omega)]
    have hmore := ih (hdrop back).symm hc (by rw [List.length_drop, List.length_cons]; omega)
      fun other ho => hw other (List.mem_cons_of_mem _ ho)
    rw [parts_of_piece hsame, hdrop after, hmore]

/-- A literal is closed by the delimiter that it is opened with. -/
theorem closing_eq {text : List Char} (h : (parts quote triple text).2 = .closed closing) :
    closing = delimiter quote triple := by
  induction text using parts.induct quote triple with
  | case1 =>
    rw [parts] at h
    cases h
  | case2 c rest ending hn =>
    rw [parts_of_ending hn] at h
    obtain rfl : ending = .closed closing := h
    unfold next at hn
    repeat' split at hn
    all_goals cases hn
    rfl
  | case3 c rest piece hn ih =>
    rw [parts_of_piece hn] at h
    exact ih h

/-- A literal about which no error is reported is closed. -/
theorem exists_closed {length : Nat} {ending : Ending}
    (hw : ∀ remark ∈ ending.remarks length, remark.issue.isWarning = true) :
    ∃ closing, ending = .closed closing := by
  cases ending with
  | closed closing => exact ⟨closing, rfl⟩
  | lineEnd => cases hw _ (List.mem_singleton_self _)
  | sourceEnd => cases hw _ (List.mem_singleton_self _)

/-- Whether a literal stands between triples of quotes is seen in a text that has room for them, if
a blank or nothing stands behind it. -/
theorem opensTriple_cut {after : List Char} (hq : Segment.separates quote = false)
    (ha : Parted after)
    (hl : (delimiter quote (opensTriple quote (front ++ back))).length ≤ front.length + 1) :
    opensTriple quote (front ++ after) = opensTriple quote (front ++ back) := by
  have hparted : opensTriple quote (front ++ after) = opensTriple quote front :=
    isPrefixOf_parted (by simp [hq]) ha
  rw [hparted]
  have hp : front <+: front ++ back := List.prefix_append front back
  cases ht : opensTriple quote (front ++ back) with
  | false =>
    rw [Bool.eq_false_iff] at ht ⊢
    exact fun ho => ht (List.isPrefixOf_iff_prefix.mpr
      ((List.isPrefixOf_iff_prefix.mp ho).trans hp))
  | true =>
    rw [ht] at hl
    exact List.isPrefixOf_iff_prefix.mpr
      (List.prefix_of_prefix_length_le (List.isPrefixOf_iff_prefix.mp ht) hp
        (Nat.le_of_succ_le_succ hl))

/-- A literal about which no error is reported is read the same if a blank or nothing stands behind
it. -/
theorem scan_cut {after : List Char} (hraw : (scan quote (front ++ back)).raw = quote :: front)
    (hw : ∀ remark ∈ (scan quote (front ++ back)).remarks, remark.issue.isWarning = true)
    (hq : Segment.separates quote = false) (ha : Parted after) :
    scan quote (front ++ after) = scan quote (front ++ back) := by
  unfold scan at hraw hw ⊢
  dsimp only at hraw hw ⊢
  obtain ⟨closing, hc⟩ := exists_closed fun remark hm => hw remark (List.mem_append_right _ hm)
  have hlength := congrArg List.length hraw
  rw [hc, Ending.raw, closing_eq hc, List.length_append, List.length_append,
    List.length_cons] at hlength
  rw [@opensTriple_cut quote front back after hq ha (by omega)]
  generalize opensTriple quote (front ++ back) = triple at hw hc hlength ⊢
  have hdrop : ∀ behind : List Char,
      (front ++ behind).drop ((delimiter quote triple).length - 1) =
        front.drop ((delimiter quote triple).length - 1) ++ behind :=
    fun behind => List.drop_append_of_le_length (by omega)
  rw [hdrop] at hw hc hlength
  have hpieces : ∀ piece ∈ (parts quote triple
      (front.drop ((delimiter quote triple).length - 1) ++ back)).1, ∀ issue ∈ piece.issue,
        issue.isWarning = true := by
    intro piece hp issue hi
    obtain ⟨place, hm⟩ := exists_partRemark hp hi
    exact hw _ (List.mem_append_left _ hm)
  have hdelimiter := delimiter_length_pos quote triple
  rw [hdrop, hdrop, parts_cut hc (by rw [List.length_drop]; omega) hpieces]

end Literal

/-! ## Segments -/

namespace Segment

variable {c : Char} {front rest after : List Char} {segment : Segment}

/-- What is read of digits before a blank or the end is a whole number. -/
theorem number_whole {whole : List Char} (hw : ∀ first ∈ whole, first.isDigit = true)
    (ha : Parted after) : number c (whole ++ after) = .lexeme .integer (c :: whole) := by
  have hdigit : ∀ first ∈ after.head?, first.isDigit = false :=
    ha.elim (by decide) (by decide) (by decide) (by decide)
  have hpoint : after.head? ≠ some '.' := ha.head?_ne (by decide)
  unfold number
  rw [takeWhile_parted hw hdigit, dropWhile_parted hw hdigit]
  split
  · exact absurd rfl hpoint
  · rfl

/-- What is read of digits around a point before a blank or the end is a number with a point. -/
theorem number_fraction {whole fraction : List Char} {digit : Char}
    (hw : ∀ first ∈ whole, first.isDigit = true) (hd : digit.isDigit = true)
    (hf : ∀ first ∈ fraction, first.isDigit = true) (ha : Parted after) :
    number c (whole ++ '.' :: digit :: fraction ++ after) =
      .lexeme .float (c :: whole ++ '.' :: digit :: fraction) := by
  have hdigit : ∀ first ∈ after.head?, first.isDigit = false :=
    ha.elim (by decide) (by decide) (by decide) (by decide)
  have hpoint : ∀ first ∈ ('.' :: digit :: (fraction ++ after)).head?, first.isDigit = false := by
    intro first hm
    cases hm
    rfl
  unfold number
  rw [List.append_assoc, List.cons_append, List.cons_append, takeWhile_parted hw hpoint,
    dropWhile_parted hw hpoint]
  simp only [hd, if_true, takeWhile_parted hf hdigit]

/-- A number is read the same if a blank or nothing stands behind it. -/
theorem number_cut (ht : (number c rest).text = c :: front) (ha : Parted after) :
    number c (front ++ after) = number c rest := by
  have hwhole : ∀ first ∈ rest.takeWhile Char.isDigit, first.isDigit = true :=
    fun first => List.mem_takeWhile_imp
  unfold number at ht
  rw [number.eq_def c rest]
  dsimp only at ht ⊢
  split at ht
  · rename_i digit more hd
    split at ht
    · rename_i hdigit
      obtain rfl := (List.cons.inj ht).2
      rw [if_pos hdigit]
      exact number_fraction hwhole hdigit (fun first => List.mem_takeWhile_imp) ha
    · rename_i hdigit
      obtain rfl := (List.cons.inj ht).2
      rw [if_neg hdigit]
      exact number_whole hwhole ha
  · obtain rfl := (List.cons.inj ht).2
    exact number_whole hwhole ha

/-- What continues a word in a text is all that does before a blank or the end. -/
theorem word_cut (text : List Char) (ha : Parted after) :
    (text.takeWhile continuesWord ++ after).takeWhile continuesWord =
      text.takeWhile continuesWord :=
  takeWhile_parted (fun _ => List.mem_takeWhile_imp)
    (ha.elim (by decide) (by decide) (by decide) (by decide))

/-- The segment of a token is read the same if a blank or nothing stands behind it, unless an error
is reported about it. -/
theorem Starts.cut (h : Starts c rest segment) (hs : segment.isToken = true)
    (hw : ∀ remark ∈ segment.remarks, remark.issue.isWarning = true)
    (ht : segment.text = c :: front) (ha : Parted after) : Starts c (front ++ after) segment := by
  cases h with
  | sign h => exact .sign h
  | arrow =>
    obtain rfl : front = ['>'] := (List.cons.inj ht).2.symm
    exact .arrow
  | minus h =>
    obtain rfl : front = [] := (List.cons.inj ht).2.symm
    exact .minus (ha.head?_ne (by decide))
  | slash hl hb =>
    obtain rfl : front = [] := (List.cons.inj ht).2.symm
    exact .slash (ha.head?_ne (by decide)) (ha.head?_ne (by decide))
  | @directive first rest hf =>
    have hfirst :=
      @List.takeWhile_cons_of_pos _ continuesWord _ rest (continuesWord_of_startsWord hf)
    obtain rfl := (List.cons.inj ht).2
    have hsame := word_cut (first :: rest) ha
    rw [hfirst, List.cons_append] at hsame ⊢
    have hdirective := @Starts.directive _ (rest.takeWhile continuesWord ++ after) hf
    rw [hsame] at hdirective
    exact hdirective
  | bang hf =>
    obtain rfl : front = [] := (List.cons.inj ht).2.symm
    exact .bang (ha.elim (by decide) (by decide) (by decide) (by decide))
  | literal hq =>
    obtain ⟨back, hb⟩ := Literal.scan_raw_isPrefix c rest
    have hraw : (Literal.scan c rest).raw = c :: front := ht
    rw [hraw, List.cons_append] at hb
    obtain rfl := (List.cons.inj hb).2
    have hblank : separates c = false := by rcases hq with rfl | rfl <;> rfl
    rw [← Literal.scan_cut hraw hw hblank ha]
    exact .literal hq
  | number ho hd =>
    rw [← number_cut ht ha]
    exact .number ho hd
  | word ho hd hf =>
    obtain rfl := (List.cons.inj ht).2
    have hword := @Starts.word _ (rest.takeWhile continuesWord ++ after) ho hd hf
    rw [word_cut rest ha] at hword
    exact hword
  | _ => cases hs

/-- A segment is read from its own characters if a blank or nothing stands behind them. -/
def Delimited (segment : Segment) : Prop :=
  ∃ c front, segment.text = c :: front ∧ ∀ after, Parted after → Starts c (front ++ after) segment

/-- Before a blank or the end, a delimited segment stands first. -/
theorem Delimited.ofText_eq (h : segment.Delimited) (ha : Parted after) :
    ofText (segment.text ++ after) = segment :: ofText after := by
  obtain ⟨c, front, ht, hstarts⟩ := h
  rw [ht, List.cons_append, (hstarts after ha).ofText_eq (by rw [ht, List.cons_append])]

/-- The segments of the tokens of a faultless source are delimited. -/
theorem Faultless.delimited {source : List Char} (h : Faultless source)
    (hm : segment ∈ ofText source) (hs : segment.isToken = true) : segment.Delimited := by
  have hw := h segment hm
  obtain ⟨c, rest, rfl⟩ := exists_next_of_mem hm
  obtain ⟨first, front, ht⟩ := List.exists_cons_of_ne_nil (text_next_ne_nil c rest)
  obtain ⟨back, hb⟩ := text_next_isPrefix c rest
  rw [ht] at hb
  obtain rfl := (List.cons.inj hb).1
  exact ⟨first, front, ht, fun after ha => (starts_next first rest).cut hs hw ht ha⟩

end Segment

end Blueprint
