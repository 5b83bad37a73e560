import Mathlib.Data.List.Forall2
import Mathlib.Data.List.Induction
import Blueprint.Source.Excerpt

/-!
# Places, lines and excerpts

The place of an offset is found by counting line feeds, the lines of a source by cutting it there.
The two agree: the place names a line and a character of it or its end, the characters before it are
those of the lines above and those before it on its line, and later offsets have later places. An
excerpt around the place shows the lines next to it with their numbers, and its caret points at the
character, as long as the number of the line has no more digits than the rows leave room for.
-/

namespace Blueprint.Position

open Blueprint.Text

/-! ## The order of places -/

/-- A place is on a line above another place, or further left on the same line. -/
def Precedes (first second : Position) : Prop :=
  first.line < second.line ∨ first.line = second.line ∧ first.column < second.column

/-- Of two places at most one precedes the other, and then they differ. -/
theorem Precedes.asymm {first second : Position} (h : first.Precedes second) :
    ¬second.Precedes first ∧ ¬(first.line = second.line ∧ first.column = second.column) := by
  unfold Precedes at *
  omega

/-- What precedes a place precedes the places after it. -/
theorem Precedes.trans {first second third : Position} (hf : first.Precedes second)
    (hs : second.Precedes third) : first.Precedes third := by
  unfold Precedes at *
  omega

/-- The place after a character is further down or further right. -/
theorem precedes_next (position : Position) (c : Char) : position.Precedes (position.next c) := by
  unfold Precedes next
  split
  · exact .inl (Int.lt_succ position.line)
  · exact .inr ⟨rfl, Int.lt_succ position.column⟩

/-- The place after some characters is further down or further right. -/
theorem precedes_after (position : Position) (c : Char) (text : List Char) :
    position.Precedes (position.after (c :: text)) := by
  induction text generalizing position c with
  | nil => exact position.precedes_next c
  | cons d text ih => exact (position.precedes_next c).trans (ih (position.next c) d)

/-- A later offset has a later place. -/
theorem ofOffset_precedes {source : List Char} {first second : Nat} (hlt : first < second)
    (hs : second ≤ source.length) :
    (ofOffset source first).Precedes (ofOffset source second) := by
  have hf : first < source.length := Nat.lt_of_lt_of_le hlt hs
  have hread : source.take second =
      source.take first ++ source[first] :: (source.take second).drop (first + 1) := by
    conv_lhs => rw [← List.take_append_drop first (source.take second)]
    rw [List.take_take, Nat.min_eq_left (Nat.le_of_lt hlt),
      List.drop_eq_getElem_cons (by rw [List.length_take]; omega), List.getElem_take]
  rw [ofOffset_eq_after (Nat.le_of_lt hf), ofOffset_eq_after hs, hread, after_append]
  exact precedes_after _ _ _

/-- Offsets are in the order of their places, and no two have the same place. -/
theorem ofOffset_order {source : List Char} {first second : Nat} (hf : first ≤ source.length)
    (hs : second ≤ source.length) :
    ((ofOffset source first).Precedes (ofOffset source second) ↔ first < second) ∧
      ((ofOffset source first).line = (ofOffset source second).line →
        (ofOffset source first).column = (ofOffset source second).column → first = second) := by
  rcases Nat.lt_trichotomy first second with hlt | rfl | hlt
  · have hp := ofOffset_precedes hlt hs
    exact ⟨iff_of_true hp hlt, fun hl hc => absurd ⟨hl, hc⟩ hp.asymm.2⟩
  · exact ⟨iff_of_false (fun hp => hp.asymm.1 hp) (Nat.lt_irrefl first), fun _ _ => rfl⟩
  · have hp := ofOffset_precedes hlt hf
    exact ⟨iff_of_false hp.asymm.1 (Nat.lt_asymm hlt),
      fun hl hc => absurd ⟨hl.symm, hc.symm⟩ hp.asymm.2⟩

/-! ## Places and lines -/

/-- The count of characters in complete lines, with their line feeds. -/
def lengthOf : List (List Char) → Nat
  | [] => 0
  | line :: lines => line.length + 1 + lengthOf lines

/-- A further line adds its characters and its line feed. -/
theorem lengthOf_concat (lines : List (List Char)) (line : List Char) :
    lengthOf (lines ++ [line]) = lengthOf lines + line.length + 1 := by
  induction lines with
  | nil => exact Nat.add_comm _ _
  | cons first lines ih =>
    rw [List.cons_append, lengthOf, ih, lengthOf]
    omega

/-- A source is cut into lines around every place: the lines above, the line that was begun before
the place and is completed after it, and the lines below. -/
theorem splitOn_append (before after : List Char) :
    ∃ above right below, splitOn '\n' after = right :: below ∧
      splitOn '\n' (before ++ after) = above ++ (lastLine before ++ right) :: below ∧
      above.length = before.count '\n' ∧
      lengthOf above + (lastLine before).length = before.length := by
  induction before using List.reverseRecOn generalizing after with
  | nil =>
    obtain ⟨right, below, hs⟩ := List.exists_cons_of_ne_nil (splitOn_ne_nil '\n' after)
    exact ⟨[], right, below, hs, hs, rfl, rfl⟩
  | append_singleton before c ih =>
    obtain ⟨above, begun, others, hr, hs, hc, hl⟩ := ih (c :: after)
    obtain ⟨right, below, ha⟩ := List.exists_cons_of_ne_nil (splitOn_ne_nil '\n' after)
    rw [List.append_assoc, List.singleton_append, hs, List.count_append, List.length_append,
      List.length_singleton, lastLine_concat]
    rw [splitOn, ha] at hr
    by_cases h : c = '\n'
    · -- The line that was begun is complete, and nothing of the next one has been read.
      rw [if_pos h] at hr ⊢
      obtain ⟨rfl, rfl⟩ := List.cons.inj hr
      refine ⟨above ++ [lastLine before], right, below, ha, ?_, ?_, ?_⟩
      · rw [List.append_nil, List.nil_append, List.append_assoc, List.singleton_append]
      · rw [List.length_append, hc, h]
        rfl
      · rw [lengthOf_concat, hl]
        rfl
    · rw [if_neg h] at hr ⊢
      obtain ⟨rfl, rfl⟩ := List.cons.inj hr
      refine ⟨above, right, below, ha, ?_, ?_, ?_⟩
      · rw [List.append_assoc, List.singleton_append]
      · rw [hc, List.count_singleton, if_neg (by simpa using h)]
        rfl
      · rw [List.length_append, List.length_singleton]
        omega

/-- The rest of a line starts with the next character, unless this ends the line. -/
theorem head?_of_splitOn {after right : List Char} {below : List (List Char)}
    (h : splitOn '\n' after = right :: below) : right.head? = after.head?.filter (· ≠ '\n') := by
  cases after with
  | nil =>
    obtain ⟨rfl, -⟩ := List.cons.inj h
    rfl
  | cons c rest =>
    rw [splitOn] at h
    by_cases hc : c = '\n'
    · rw [if_pos hc] at h
      obtain ⟨rfl, -⟩ := List.cons.inj h
      simp [Option.filter, hc]
    · rw [if_neg hc] at h
      split at h <;>
      · obtain ⟨rfl, -⟩ := List.cons.inj h
        simp [Option.filter, hc]

/-- A place stands at an offset of a source with the given lines, on a line with the given text. -/
structure StandsAt (position : Position) (lines : List (List Char)) (text : List Char)
    (offset : Nat) : Prop where
  /-- Lines are counted from one. -/
  line_ge : 1 ≤ position.line
  /-- The line is one of the source. -/
  line_le : position.line ≤ lines.length
  /-- The line has the text. -/
  text_eq : lines[(position.line - 1).toNat]? = some text
  /-- Columns are counted from one. -/
  column_ge : 0 ≤ position.column - 1
  /-- The column is one of the line, or the one behind it. -/
  column_le : position.column - 1 ≤ text.length
  /-- Before the place are the lines above and what is left of it. -/
  offset_eq : lengthOf (lines.take (position.line - 1).toNat) + (position.column - 1) = offset

/-- The place of an offset stands there, and the character at the offset is that of its line at the
column, unless it ends the line. -/
theorem exists_standsAt {source : List Char} {offset : Nat} (h : offset ≤ source.length) :
    ∃ text, (ofOffset source offset).StandsAt (splitOn '\n' source) text offset ∧
      text[((ofOffset source offset).column - 1).toNat]? =
        source[offset]?.filter (· ≠ '\n') := by
  obtain ⟨above, right, below, hr, hs, hc, hl⟩ :=
    splitOn_append (source.take offset) (source.drop offset)
  rw [List.take_append_drop] at hs
  rw [List.length_take, Nat.min_eq_left h] at hl
  have hline : (ofOffset source offset).line = above.length + 1 := by rw [ofOffset, hc]
  have hcolumn : (ofOffset source offset).column =
      (lastLine (source.take offset)).length + 1 := rfl
  have hindex : ((ofOffset source offset).line - 1).toNat = above.length := by omega
  refine ⟨lastLine (source.take offset) ++ right, ⟨?_, ?_, ?_, ?_, ?_, ?_⟩, ?_⟩
  · omega
  · rw [hline, hs, List.length_append, List.length_cons]
    omega
  · rw [hindex, hs, List.getElem?_append_right (Nat.le_refl _), Nat.sub_self]
    rfl
  · omega
  · rw [hcolumn, List.length_append]
    omega
  · rw [hindex, hs, List.take_left]
    omega
  · have hplace : ((ofOffset source offset).column - 1).toNat =
        (lastLine (source.take offset)).length := by omega
    rw [hplace, List.getElem?_append_right (Nat.le_refl _), Nat.sub_self, ← List.head?_eq_getElem?,
      head?_of_splitOn hr, List.head?_drop]

end Blueprint.Position

namespace Blueprint.Excerpt

open Blueprint.Text

/-! ## Rows -/

/-- The lines from one number to another, with their numbers. -/
def numbered (lines : List (List Char)) (first last : Int) : List (List Char × Nat) :=
  (lines.zipIdx 1).filter fun line => first ≤ line.2 ∧ line.2 ≤ last

/-- A row shows a line: a mark, the number behind blanks, and the text behind a bar. -/
def Shows (mark : Char) (line : List Char × Nat) (row : List Char) : Prop :=
  ∃ blanks, row = mark :: (List.replicate blanks ' ' ++ Nat.toDigits 10 line.2 ++ [' ', '|', ' '] ++
    line.1)

/-- A row has a caret behind nothing but blanks and a bar. -/
def HasCaret (row : List Char) : Prop :=
  ∃ left right, row = List.replicate left ' ' ++ '|' :: (List.replicate right ' ' ++ ['^'])

/-- A caret stands under a column of the text at the end of the row above. -/
def IsUnder (caret row text : List Char) (column : Int) : Prop :=
  ∃ gutter, row = gutter ++ text ∧ (caret.idxOf '^' : Int) = gutter.length + (column - 1)

variable {marked number : Nat} {column : Int} {lines : List (List Char)} {text : List Char}

/-- The row of a line shows it. -/
theorem shows_numberedLine (mark : Bool) (number : Nat) (text : List Char) :
    Shows (if mark then '>' else ' ') (text, number) (numberedLine mark number text) := by
  refine ⟨gutterWidth - (Nat.toDigits 10 number).length + 1, ?_⟩
  rw [numberedLine, padLeft, List.replicate_succ]
  simp only [List.append_assoc, List.cons_append]

/-- The row of the caret has a caret. -/
theorem hasCaret_caretRow (column : Int) : HasCaret (caretRow column) := by
  refine ⟨7, (column - 1).toNat + 1, ?_⟩
  rw [List.replicate_succ]
  rfl

/-- The caret stands behind the place for the number, the bar and the columns before its own. -/
theorem idxOf_caretRow (column : Int) : (caretRow column).idxOf '^' = (column - 1).toNat + 9 := by
  have hrow : caretRow column =
      (List.replicate 7 ' ' ++ ['|', ' ']) ++ List.replicate (column - 1).toNat ' ' ++ ['^'] := rfl
  have hnot : '^' ∉ (List.replicate 7 ' ' ++ ['|', ' ']) ++
      List.replicate (column - 1).toNat ' ' := by simp
  rw [hrow, List.idxOf_append_of_notMem hnot]
  simp

/-- The caret stands under its column exactly if the number fits into its place. -/
theorem isUnder_caretRow_iff (hc : 0 ≤ column - 1) :
    IsUnder (caretRow column) (numberedLine true number text) text column ↔ number ≤ 9999 := by
  have hfits : (Nat.toDigits 10 number).length ≤ 4 ↔ number < 10 ^ 4 :=
    Nat.length_toDigits_le_iff (by decide) (by decide)
  have hrow : numberedLine true number text = '>' :: ' ' ::
      (padLeft gutterWidth (Nat.toDigits 10 number) ++ [' ', '|', ' ']) ++ text := rfl
  have hlength : ('>' :: ' ' ::
      (padLeft gutterWidth (Nat.toDigits 10 number) ++ [' ', '|', ' '])).length =
        4 - (Nat.toDigits 10 number).length + (Nat.toDigits 10 number).length + 5 := by
    simp [padLeft, gutterWidth, Nat.add_assoc]
  unfold IsUnder
  rw [hrow, idxOf_caretRow]
  -- The text begins behind nine characters, or more if the number has more than four digits.
  constructor
  · rintro ⟨gutter, hg, hi⟩
    rw [← List.append_cancel_right hg, hlength] at hi
    omega
  · intro hn
    refine ⟨_, rfl, ?_⟩
    rw [hlength]
    omega

/-- Lines below the marked one have a row each. -/
theorem forall₂_rows (h : marked < number) :
    List.Forall₂ (fun line row => Shows (if line.2 = marked then '>' else ' ') line row)
      (lines.zipIdx number) (rows marked column number lines) := by
  induction lines generalizing number with
  | nil => exact .nil
  | cons first lines ih =>
    have hne : ¬number = marked := Nat.ne_of_gt h
    have hmark : (number == marked) = false := beq_false_of_ne hne
    rw [List.zipIdx_cons, rows, if_neg hne, hmark]
    refine .cons ?_ (ih (Nat.lt_succ_of_lt h))
    rw [if_neg hne]
    exact shows_numberedLine false number first

/-- Lines have a row each, and the marked one has the row with the caret behind its own. -/
theorem exists_rows (h : (text, marked) ∈ lines.zipIdx number) :
    ∃ above below, rows marked column number lines =
        above ++ numberedLine true marked text :: caretRow column :: below ∧
      List.Forall₂ (fun line row => Shows (if line.2 = marked then '>' else ' ') line row)
        (lines.zipIdx number) (above ++ numberedLine true marked text :: below) := by
  induction lines generalizing number with
  | nil => cases h
  | cons first lines ih =>
    rw [List.zipIdx_cons] at h ⊢
    have hshows : Shows (if number = marked then '>' else ' ') (first, number)
        (numberedLine (number == marked) number first) := by
      simpa only [beq_iff_eq] using shows_numberedLine (number == marked) number first
    rcases List.mem_cons.mp h with he | h
    · obtain ⟨rfl, rfl⟩ := Prod.mk.inj he
      rw [beq_self_eq_true] at hshows
      rw [rows, if_pos rfl, beq_self_eq_true]
      exact ⟨[], _, rfl, .cons hshows (forall₂_rows (Nat.lt_succ_self marked))⟩
    · have hlt : number < marked := (List.mem_zipIdx h).1
      have hne : ¬number = marked := Nat.ne_of_lt hlt
      obtain ⟨above, below, hr, hs⟩ := ih h
      rw [rows, if_neg hne, hr]
      exact ⟨_ :: above, below, rfl, .cons hshows hs⟩

/-! ## Excerpts -/

/-- The lines between two numbers are those that are cut out. -/
theorem numbered_eq {first last : Nat} (hf : 1 ≤ first) (hl : first ≤ last + 1)
    (hlast : last ≤ lines.length) :
    numbered lines first last = ((lines.take last).drop (first - 1)).zipIdx first := by
  have hsplit : lines = (lines.take last).take (first - 1) ++
      ((lines.take last).drop (first - 1) ++ lines.drop last) := by
    rw [← List.append_assoc, List.take_append_drop, List.take_append_drop]
  unfold numbered
  conv_lhs => rw [hsplit]
  have hfront : ((lines.take last).take (first - 1)).length = first - 1 := by
    simp only [List.length_take]
    omega
  rw [List.zipIdx_append, List.zipIdx_append, hfront, Nat.add_sub_cancel' hf, List.filter_append,
    List.filter_append, List.filter_eq_nil_iff.mpr, List.filter_eq_self.mpr,
    List.filter_eq_nil_iff.mpr, List.nil_append, List.append_nil]
  -- The lines before the first and behind the last have other numbers than those between them.
  all_goals
    rintro ⟨line, k⟩ hm
    have hk := List.mem_zipIdx hm
    simp only [List.length_drop, List.length_take] at hk
    simp only [decide_eq_true_eq]
    omega

/-- The lines around a line that exists are those that are cut out for its excerpt. -/
theorem numbered_around {line : Nat} (hge : 1 ≤ line) (hle : line ≤ lines.length) (context : Nat) :
    numbered lines (max 1 ((line : Int) - context)) (min lines.length ((line : Int) + context)) =
      ((lines.take (min lines.length (line + context))).drop (max 1 (line - context) - 1)).zipIdx
        (max 1 (line - context)) := by
  have hfirst : max 1 ((line : Int) - context) = (max 1 (line - context) : Nat) := by omega
  have hlast : min (lines.length : Int) ((line : Int) + context) =
      (min lines.length (line + context) : Nat) := by omega
  rw [hfirst, hlast]
  exact numbered_eq (by omega) (by omega) (by omega)

/-- The rows around a line that exists. -/
theorem around_eq {source : List Char} {line : Nat} (hge : 1 ≤ line)
    (hle : line ≤ (splitOn '\n' source).length) (column : Int) (context : Nat) :
    around source line column context =
      rows line column (max 1 (line - context))
        (((splitOn '\n' source).take (min (splitOn '\n' source).length (line + context))).drop
          (max 1 (line - context) - 1)) := by
  have hinside : ¬((line : Int) < 1 || decide (((splitOn '\n' source).length : Int) < line)) =
      true := by
    simp only [Bool.or_eq_true, decide_eq_true_eq]
    omega
  have hfirst : (max 1 ((line : Int) - context)).toNat = max 1 (line - context) := by omega
  have hlast : (min ((splitOn '\n' source).length : Int) (line + context)).toNat =
      min (splitOn '\n' source).length (line + context) := by omega
  unfold around
  dsimp only
  rw [if_neg hinside, hfirst, hlast, Int.toNat_natCast]

/-- No row of an excerpt has a line feed. -/
theorem lineFeed_notMem_rows (hl : ∀ text ∈ lines, '\n' ∉ text) :
    ∀ row ∈ rows marked column number lines, '\n' ∉ row := by
  have hline : ∀ mark number text, '\n' ∉ text → '\n' ∉ numberedLine mark number text := by
    intro mark number text ht hm
    have hdigits : '\n' ∉ Nat.toDigits 10 number := fun hd =>
      absurd (Nat.isDigit_of_mem_toDigits (by decide) (by decide) hd) (by decide)
    cases mark <;> simp [numberedLine, padLeft, hdigits, ht] at hm
  have hcaret : '\n' ∉ caretRow column := by simp [caretRow, padLeft]
  induction lines generalizing number with
  | nil => exact nofun
  | cons first lines ih =>
    obtain ⟨hf, hl⟩ := List.forall_mem_cons.mp hl
    rw [rows]
    split
    · exact List.forall_mem_cons.mpr ⟨hline _ _ _ hf, List.forall_mem_cons.mpr ⟨hcaret, ih hl⟩⟩
    · exact List.forall_mem_cons.mpr ⟨hline _ _ _ hf, ih hl⟩

/-- An excerpt around a place: the lines around it, its own with a mark, and the caret below. -/
structure Frames (lines : List (List Char)) (position : Position) (context : Nat)
    (above : List (List Char)) (row caret : List Char) (below : List (List Char)) : Prop where
  /-- The rows without the caret show the lines around the place, only its own with the mark. -/
  lines_eq : List.Forall₂
    (fun line row => Shows (if (line.2 : Int) = position.line then '>' else ' ') line row)
    (numbered lines (max 1 (position.line - context))
      (min lines.length (position.line + context)))
    (above ++ row :: below)
  /-- The row above the caret shows the line of the place. -/
  row_eq : ∃ text, lines[(position.line - 1).toNat]? = some text ∧
    Shows '>' (text, position.line.toNat) row
  /-- The row below it has the caret. -/
  caret_eq : HasCaret caret

/-- A caret points at the character at an offset, or behind a row if there is none on its line. -/
structure PointsAt (caret row source : List Char) (offset : Nat) : Prop where
  /-- A character of a line stands above the caret. -/
  inside : ∀ c, source[offset]? = some c → c ≠ '\n' → row[caret.idxOf '^']? = some c
  /-- For the end of a line the caret stands one behind the last character. -/
  behind : source[offset]? = none ∨ source[offset]? = some '\n' → caret.idxOf '^' = row.length

/-- A caret under the column of an offset points at its character. -/
theorem IsUnder.pointsAt {caret row source : List Char} {offset : Nat}
    (h : IsUnder caret row text column) (hge : 0 ≤ column - 1) (hle : column - 1 ≤ text.length)
    (ht : text[(column - 1).toNat]? = source[offset]?.filter (· ≠ '\n')) :
    PointsAt caret row source offset := by
  obtain ⟨gutter, rfl, hi⟩ := h
  have hindex : caret.idxOf '^' = gutter.length + (column - 1).toNat := by omega
  constructor
  · intro c hc hn
    rw [hindex, List.getElem?_append_right (Nat.le_add_right _ _), Nat.add_sub_cancel_left, ht, hc]
    simp [Option.filter, hn]
  · intro hend
    have hnone : text[(column - 1).toNat]? = none := by
      rw [ht]
      rcases hend with hend | hend <;> rw [hend] <;> rfl
    have hlast := List.getElem?_eq_none_iff.mp hnone
    rw [hindex, List.length_append]
    omega

/-- The excerpt around a place frames it. -/
theorem exists_frames {source : List Char} {position : Position} {offset : Nat}
    (h : position.StandsAt (splitOn '\n' source) text offset) (context : Nat) :
    ∃ above below,
      splitOn '\n' (Excerpt.text source position.line position.column context).toList =
        above ++ numberedLine true position.line.toNat text ::
          caretRow position.column :: below ∧
      Frames (splitOn '\n' source) position context above
        (numberedLine true position.line.toNat text) (caretRow position.column) below := by
  obtain ⟨line, column, _⟩ := position
  obtain ⟨hge, hle, htext, -, -, -⟩ := h
  dsimp only at hge hle htext ⊢
  obtain ⟨line, rfl⟩ := Int.eq_ofNat_of_zero_le (Int.le_trans (by decide) hge)
  have hge : 1 ≤ line := by omega
  have hle : line ≤ (splitOn '\n' source).length := by omega
  have hindex : ((line : Int) - 1).toNat = line - 1 := by omega
  have hmem : (text, line) ∈ numbered (splitOn '\n' source) (max 1 ((line : Int) - context))
      (min ((splitOn '\n' source).length : Int) ((line : Int) + context)) := by
    refine List.mem_filter.mpr ⟨?_, ?_⟩
    · rw [List.mk_mem_zipIdx_iff_le_and_getElem?_sub, ← hindex]
      exact ⟨hge, htext⟩
    · simp only [decide_eq_true_eq]
      omega
  rw [numbered_around hge hle] at hmem
  obtain ⟨above, below, hrows, hshows⟩ := @exists_rows _ _ column _ _ hmem
  have hlines : ∀ row ∈ around source line column context, '\n' ∉ row := by
    rw [around_eq hge hle]
    exact lineFeed_notMem_rows fun text hm =>
      separator_notMem_of_mem_splitOn (List.mem_of_mem_take (List.mem_of_mem_drop hm))
  rw [← around_eq hge hle] at hrows
  refine ⟨above, below, ?_, ?_, ⟨text, htext, shows_numberedLine true line text⟩,
    hasCaret_caretRow column⟩
  · rw [Excerpt.text, String.toList_ofList, splitOn_eq, List.splitOn_intercalate '\n' hlines, hrows,
      Int.toNat_natCast]
    rw [hrows]
    exact List.append_ne_nil_of_right_ne_nil _ (List.cons_ne_nil _ _)
  · dsimp only
    rw [numbered_around hge hle]
    simpa only [Int.natCast_inj, Int.toNat_natCast] using hshows

/-- Every offset of a source has one place, later offsets have later places, and the place agrees
with the lines of the source. The excerpt around the place consists of the lines around its line,
each with its number, and only its line is marked. Below that stands a caret under the column of the
place, if the number of the line has at most four digits; from the ten thousandth line on the caret
stands further left. -/
theorem excerpt_of_offset {source : List Char} {offset : Nat} (h : offset ≤ source.length) :
    ∃ position text, Position.ofOffset? source offset = .ok position ∧
      position.StandsAt (splitOn '\n' source) text offset ∧
      (∀ other : Nat, other ≤ source.length →
        ∃ place, Position.ofOffset? source other = .ok place ∧
          (position.Precedes place ↔ offset < other) ∧
          (position.line = place.line → position.column = place.column → offset = other)) ∧
      ∀ context : Nat, ∃ above row caret below,
        splitOn '\n' (Excerpt.text source position.line position.column context).toList =
          above ++ row :: caret :: below ∧
        Frames (splitOn '\n' source) position context above row caret below ∧
        (IsUnder caret row text position.column ↔ position.line ≤ 9999) ∧
        (position.line ≤ 9999 → PointsAt caret row source offset) := by
  obtain ⟨text, hs, ht⟩ := Position.exists_standsAt h
  refine ⟨Position.ofOffset source offset, text, Position.ofOffset?_of_le h, hs, fun other ho =>
    ⟨_, Position.ofOffset?_of_le ho, Position.ofOffset_order h ho⟩, fun context => ?_⟩
  obtain ⟨above, below, hsplit, hframes⟩ := exists_frames hs context
  have hfits := hs.line_ge
  have hunder : IsUnder (caretRow (Position.ofOffset source offset).column)
      (numberedLine true (Position.ofOffset source offset).line.toNat text) text
      (Position.ofOffset source offset).column ↔ (Position.ofOffset source offset).line ≤ 9999 :=
    (isUnder_caretRow_iff hs.column_ge).trans (by omega)
  exact ⟨above, _, _, below, hsplit, hframes, hunder, fun hl =>
    (hunder.mpr hl).pointsAt hs.column_ge hs.column_le ht⟩

/-- The place of a line feed in an empty line, and the excerpt around it. -/
theorem excerpt_of_offset_emptyLine :
    4 ≤ "one\n\nthree\n".toList.length ∧
      Position.ofOffset? "one\n\nthree\n".toList 4 = .ok ⟨2, 1, 4⟩ ∧
      Position.StandsAt ⟨2, 1, 4⟩ ["one".toList, [], "three".toList, []] [] 4 ∧
      ∃ above row caret below,
        ["     1 | one".toList, ">    2 | ".toList, "       | ^".toList, "     3 | three".toList] =
          above ++ row :: caret :: below ∧
        Frames ["one".toList, [], "three".toList, []] ⟨2, 1, 4⟩ 1 above row caret below ∧
        IsUnder caret row [] 1 ∧ PointsAt caret row "one\n\nthree\n".toList 4 := by
  have hin : 4 ≤ "one\n\nthree\n".toList.length := by decide
  have hlines : splitOn '\n' "one\n\nthree\n".toList =
      ["one".toList, [], "three".toList, []] := by decide +kernel
  have hrows : splitOn '\n' (Excerpt.text "one\n\nthree\n".toList 2 1 (1 : Nat)).toList =
      ["     1 | one".toList, ">    2 | ".toList, "       | ^".toList,
        "     3 | three".toList] := by
    decide +kernel
  have hplace : Position.ofOffset? "one\n\nthree\n".toList 4 = .ok ⟨2, 1, 4⟩ := by decide +kernel
  obtain ⟨position, text, hp, hs, -, hexcerpt⟩ := excerpt_of_offset hin
  obtain rfl := Except.ok.inj (hp.symm.trans hplace)
  rw [hlines] at hs
  obtain rfl : [] = text := Option.some.inj hs.text_eq
  obtain ⟨above, row, caret, below, hsplit, hframes, hunder, hpoints⟩ := hexcerpt 1
  rw [hlines] at hframes
  exact ⟨hin, hplace, hs, above, row, caret, below, hrows.symm.trans hsplit, hframes,
    hunder.mpr (by decide), hpoints (by decide)⟩

/-- Line feeds before a character are empty lines above its line. -/
theorem splitOn_lineFeeds (count : Nat) (c : Char) (hc : c ≠ '\n') :
    splitOn '\n' (List.replicate count '\n' ++ [c]) = List.replicate count [] ++ [[c]] := by
  induction count with
  | zero => exact if_neg hc
  | succ count ih =>
    rw [List.replicate_succ, List.cons_append, splitOn, if_pos rfl, ih]
    rfl

/-- The line behind line feeds has their count above it. -/
theorem ofOffset?_lineFeeds (count : Nat) (c : Char) :
    Position.ofOffset? (List.replicate count '\n' ++ [c]) count = .ok ⟨count + 1, 1, count⟩ := by
  have hle : count ≤ (List.replicate count '\n' ++ [c]).length := by
    rw [List.length_append, List.length_replicate]
    exact Nat.le_add_right _ _
  have hbegun : Position.lastLine (List.replicate count '\n') = [] := by
    simp [Position.lastLine]
  rw [Position.ofOffset?_of_le hle, Position.ofOffset, List.take_left' List.length_replicate,
    List.count_replicate_self, hbegun]
  rfl

/-- The excerpt without lines around it has the line behind line feeds and the caret. -/
theorem around_lineFeeds (count : Nat) {c : Char} (hc : c ≠ '\n') :
    around (List.replicate count '\n' ++ [c]) (count + 1 : Nat) 1 (0 : Nat) =
      [numberedLine true (count + 1) [c], caretRow 1] := by
  have hlines := splitOn_lineFeeds count c hc
  have hcount : (splitOn '\n' (List.replicate count '\n' ++ [c])).length = count + 1 := by
    rw [hlines, List.length_append, List.length_replicate, List.length_singleton]
  rw [around_eq (Nat.le_add_left 1 count) (Nat.le_of_eq hcount.symm), hcount, Nat.add_zero,
    Nat.min_self, Nat.sub_zero, Nat.max_eq_right (Nat.le_add_left 1 count), Nat.add_sub_cancel,
    List.take_of_length_le (Nat.le_of_eq hcount), hlines, List.drop_left' List.length_replicate,
    rows, if_pos rfl, beq_self_eq_true]
  rfl

/-- On the ten thousandth line the caret stands to the left of its column. -/
theorem not_isUnder_tenThousand :
    Position.ofOffset? (List.replicate 9999 '\n' ++ ['x']) 9999 = .ok ⟨10000, 1, 9999⟩ ∧
      around (List.replicate 9999 '\n' ++ ['x']) 10000 1 0 =
        ["> 10000 | x".toList, "       | ^".toList] ∧
      ¬IsUnder "       | ^".toList "> 10000 | x".toList ['x'] 1 := by
  have hrow : numberedLine true 10000 ['x'] = "> 10000 | x".toList := by decide +kernel
  have hcaret : caretRow 1 = "       | ^".toList := by decide +kernel
  rw [← hrow, ← hcaret, isUnder_caretRow_iff (by decide)]
  exact ⟨ofOffset?_lineFeeds 9999 'x', around_lineFeeds 9999 (by decide), by decide⟩

end Blueprint.Excerpt
