import Blueprint.Token.Segment

/-!
# What stands next in a source

A segment is found by its first characters. Here the cases are listed once, with the condition of
each; what holds of the next segment is then shown case by case.
-/

namespace Blueprint.Segment

open Blueprint.Text

/-- A character is no sign of its own, no blank, and starts no longer sign, comment, directive or
literal. -/
structure Ordinary (c : Char) : Prop where
  /-- It is no sign. -/
  sign : Sign.ofChar? c = none
  /-- It is no blank. -/
  blank : separates c = false
  /-- It starts nothing that is told by its first character. -/
  mark : c ≠ '-' ∧ c ≠ '/' ∧ c ≠ '!' ∧ c ≠ '"' ∧ c ≠ '\''

/-- The segment that a character and the text after it start with. -/
inductive Starts : Char → List Char → Segment → Prop where
  /-- A sign that no longer sign starts with. -/
  | sign {c : Char} {rest : List Char} {sign : Sign} (h : Sign.ofChar? c = some sign) :
    Starts c rest (.lexeme (.sign sign) [c])
  /-- A blank. -/
  | blank {c : Char} {rest : List Char} (h : separates c = true) : Starts c rest (.blank c)
  /-- An arrow. -/
  | arrow {rest : List Char} : Starts '-' ('>' :: rest) (.lexeme (.sign .arrow) ['-', '>'])
  /-- A minus sign that is not the start of an arrow. -/
  | minus {rest : List Char} (h : rest.head? ≠ some '>') :
    Starts '-' rest (.lexeme (.sign .minus) ['-'])
  /-- A line comment. -/
  | lineComment {body : List Char} :
    Starts '/' ('/' :: body) (.lineComment ('/' :: '/' :: body.takeWhile (· != '\n')))
  /-- A block comment. -/
  | blockComment {body : List Char} :
    Starts '/' ('*' :: body)
      (.blockComment ('/' :: '*' :: (commentBody 0 body).1) (commentBody 0 body).2)
  /-- A slash that starts no comment. -/
  | slash {rest : List Char} (hl : rest.head? ≠ some '/') (hb : rest.head? ≠ some '*') :
    Starts '/' rest (.lexeme (.sign .slash) ['/'])
  /-- A directive. -/
  | directive {first : Char} {rest : List Char} (h : startsWord first = true) :
    Starts '!' (first :: rest)
      (.lexeme (directiveKind ((first :: rest).takeWhile continuesWord))
        ('!' :: (first :: rest).takeWhile continuesWord))
  /-- An exclamation mark that starts no directive. -/
  | bang {rest : List Char} (h : ∀ first ∈ rest.head?, startsWord first = false) :
    Starts '!' rest (.lexeme (.sign .bang) ['!'])
  /-- A string literal. -/
  | literal {quote : Char} {rest : List Char} (h : quote = '"' ∨ quote = '\'') :
    Starts quote rest (.literal (Literal.scan quote rest))
  /-- A number. -/
  | number {c : Char} {rest : List Char} (ho : Ordinary c) (hd : c.isDigit = true) :
    Starts c rest (number c rest)
  /-- A word. -/
  | word {c : Char} {rest : List Char} (ho : Ordinary c) (hd : c.isDigit = false)
    (hw : startsWord c = true) :
    Starts c rest (.lexeme (wordKind (c :: rest.takeWhile continuesWord))
      (c :: rest.takeWhile continuesWord))
  /-- A character that nothing starts with. -/
  | unexpected {c : Char} {rest : List Char} (ho : Ordinary c) (hd : c.isDigit = false)
    (hw : startsWord c = false) : Starts c rest (.unexpected c)

/-- A number is a lexeme. -/
theorem exists_number (first : Char) (rest : List Char) :
    ∃ kind text, number first rest = .lexeme kind text := by
  unfold number
  dsimp only
  split
  · split <;> exact ⟨_, _, rfl⟩
  · exact ⟨_, _, rfl⟩

/-- The next segment is one of these. -/
theorem starts_next (c : Char) (rest : List Char) : Starts c rest (next c rest) := by
  unfold next
  split
  · rename_i sign hs
    exact .sign hs
  · rename_i hs
    by_cases hb : separates c = true
    · rw [if_pos hb]
      exact .blank hb
    rw [if_neg hb]
    by_cases hm : c = '-'
    · rw [if_pos hm, hm]
      split
      · exact .arrow
      · rename_i ha
        refine .minus fun hh => ?_
        obtain ⟨more, rfl⟩ := List.head?_eq_some_iff.mp hh
        exact ha more rfl
    rw [if_neg hm]
    by_cases hc : c = '/'
    · rw [if_pos hc, hc]
      split
      · exact .lineComment
      · exact .blockComment
      · rename_i hl hb
        refine .slash (fun hh => ?_) (fun hh => ?_) <;>
          obtain ⟨more, rfl⟩ := List.head?_eq_some_iff.mp hh
        · exact hl more rfl
        · exact hb more rfl
    rw [if_neg hc]
    by_cases he : c = '!'
    · rw [if_pos he, he]
      split
      · rename_i first more
        split
        · rename_i hw
          exact .directive hw
        · rename_i hw
          refine .bang fun other ho => ?_
          cases ho
          exact Bool.eq_false_iff.mpr hw
      · exact .bang nofun
    rw [if_neg he]
    by_cases hq : (c = '"' || c = '\'') = true
    · rw [if_pos hq]
      exact .literal (by simpa using hq)
    rw [if_neg hq]
    simp only [Bool.or_eq_true, decide_eq_true_eq, not_or] at hq
    have ho : Ordinary c := ⟨hs, Bool.eq_false_iff.mpr hb, hm, hc, he, hq.1, hq.2⟩
    split
    · rename_i hd
      exact .number ho hd
    · rename_i hd
      split
      · rename_i hw
        exact .word ho (Bool.eq_false_iff.mpr hd) hw
      · rename_i hw
        exact .unexpected ho (Bool.eq_false_iff.mpr hd) (Bool.eq_false_iff.mpr hw)

/-- No sign starts with an ordinary character. -/
theorem Ordinary.next_eq {c : Char} (h : Ordinary c) (rest : List Char) :
    next c rest = if c.isDigit then number c rest
      else if startsWord c then
        .lexeme (wordKind (c :: rest.takeWhile continuesWord)) (c :: rest.takeWhile continuesWord)
      else .unexpected c := by
  unfold next
  rw [h.sign]
  obtain ⟨hm, hs, hb, hd, hq⟩ := h.mark
  simp [h.blank, hm, hs, hb, hd, hq]

/-- The next segment is the only one of these. -/
theorem Starts.next_eq {c : Char} {rest : List Char} {segment : Segment}
    (h : Starts c rest segment) : next c rest = segment := by
  cases h with
  | sign h =>
    unfold next
    rw [h]
  | blank h =>
    have hs : Sign.ofChar? c = none := by
      simp only [separates, Bool.or_eq_true, beq_iff_eq] at h
      rcases h with ((rfl | rfl) | rfl) | rfl <;> rfl
    unfold next
    rw [hs, if_pos h]
  | arrow => rfl
  | minus h =>
    rcases rest with _ | ⟨first, more⟩
    · rfl
    · have hf : first ≠ '>' := fun he => h (by rw [he]; rfl)
      simp [next, Sign.ofChar?, separates, hf]
  | lineComment => rfl
  | blockComment => rfl
  | slash hl hb =>
    rcases rest with _ | ⟨first, more⟩
    · rfl
    · have hl : first ≠ '/' := fun he => hl (by rw [he]; rfl)
      have hb : first ≠ '*' := fun he => hb (by rw [he]; rfl)
      simp [next, Sign.ofChar?, separates, hl, hb]
  | directive h => simp [next, Sign.ofChar?, separates, h]
  | bang h =>
    rcases rest with _ | ⟨first, more⟩
    · rfl
    · simp [next, Sign.ofChar?, separates, h first rfl]
  | literal h => rcases h with rfl | rfl <;> rfl
  | number ho hd => rw [ho.next_eq, if_pos hd]
  | word ho hd hw => rw [ho.next_eq, if_neg (Bool.eq_false_iff.mp hd), if_pos hw]
  | unexpected ho hd hw =>
    rw [ho.next_eq, if_neg (Bool.eq_false_iff.mp hd), if_neg (Bool.eq_false_iff.mp hw)]

/-- Every segment of a text is the next one of what is left of the text at some point. -/
theorem exists_next_of_mem {source : List Char} {segment : Segment} (h : segment ∈ ofText source) :
    ∃ c rest, segment = next c rest := by
  induction source using ofText.induct with
  | case1 =>
    rw [ofText] at h
    cases h
  | case2 c rest first ih =>
    rw [ofText] at h
    rcases List.mem_cons.mp h with he | h
    · exact ⟨c, rest, he⟩
    · exact ih h

/-- Behind the next segment come the segments of the text behind it. -/
theorem Starts.ofText_eq {c : Char} {rest more : List Char} {segment : Segment}
    (h : Starts c rest segment) (ht : c :: rest = segment.text ++ more) :
    ofText (c :: rest) = segment :: ofText more := by
  rw [ofText, h.next_eq, ht, List.drop_left]

/-- A line feed is a segment of its own at the start of a text. -/
theorem ofText_lineFeed (more : List Char) : ofText ('\n' :: more) = .blank '\n' :: ofText more :=
  (Starts.blank (by decide)).ofText_eq rfl

end Blueprint.Segment
