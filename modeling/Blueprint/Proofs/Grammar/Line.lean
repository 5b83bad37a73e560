import Blueprint.Proofs.Grammar.Run

/-!
# Reading on a line

What is read on a line are plain tokens: values end before a brace, and arguments are words,
literals and numbers. Only a body opens a block.
-/

namespace Blueprint.Grammar

open Blueprint.Declared Blueprint.Text

variable {spots : Position → Prop} {p q r : Progress}

/-! ## Tokens of a line -/

/-- A token of a line is plain. -/
theorem isPlain_of_onLine {line : Int} {token : Token} (h : onLine line token = true) :
    isPlain token.kind = true := by
  unfold onLine at h
  unfold isPlain
  split <;> simp_all

/-- A token that may be an argument is plain. -/
theorem isPlain_of_isPositional {token : Token} (h : isPositional token = true) :
    isPlain token.kind = true := by
  unfold isPositional at h
  unfold isPlain
  split <;> simp_all

/-- A part of a reference is plain. -/
theorem isPlain_of_isReferencePart {token : Token} (h : isReferencePart token = true) :
    isPlain token.kind = true := by
  unfold isReferencePart at h
  unfold isPlain
  split <;> simp_all

/-- A token of a kind that is no brace and no end is plain. -/
theorem isPlain_of_kind {token : Token} {kind : Kind} (h : token.kind = kind)
    (hk : isPlain kind = true) : isPlain token.kind = true := by
  rw [h]
  exact hk

/-- Arguments stand at the start of the tokens. -/
theorem positional_prefix (line : Int) (limit : Nat) (tokens : List Token) :
    positional line limit tokens <+: tokens :=
  (List.takeWhile_prefix _).trans (List.take_prefix _ _)

/-- Arguments are plain. -/
theorem isPlain_of_mem_positional {line : Int} {limit : Nat} {tokens : List Token}
    {token : Token} (h : token ∈ positional line limit tokens) : isPlain token.kind = true := by
  have hp := List.all_eq_true.mp List.all_takeWhile token h
  simp only [Bool.and_eq_true] at hp
  exact isPlain_of_isPositional hp.2

/-! ## Values and arguments -/

/-- Taking the values of a line passes plain tokens. -/
theorem runs_takeValues (h : p.Sound spots) (line : Int) :
    Runs spots p (takeValues line) fun _ q => Goes 0 0 p q := by
  unfold takeValues
  refine .remaining ((runs_skip h (List.takeWhile_append_dropWhile).symm ?_).bind ?_)
  · intro token hm
    exact isPlain_of_onLine (List.all_eq_true.mp List.all_takeWhile token hm)
  · intro _ q hf hg
    exact .pure hf.sound (hg.weaken (Nat.zero_le _))

/-- A value of a line passes plain tokens. -/
theorem runs_expectValue (h : p.Sound spots) (line : Int) (wanted : Wanted) :
    Runs spots p (expectValue line wanted) fun _ q => Goes 0 0 p q := by
  unfold expectValue
  refine (runs_takeValues h line).bind ?_
  intro values q hf hg
  split
  · exact .current hf.sound (.failExpected hf.sound)
  · exact .pure hf.sound hg

/-- Arguments pass plain tokens. -/
theorem runs_takePositional (h : p.Sound spots) (line : Int) (limit : Nat) :
    Runs spots p (takePositional line limit) fun _ q => Goes 0 0 p q := by
  unfold takePositional
  refine .remaining ?_
  obtain ⟨more, he⟩ := positional_prefix line limit p.rest
  have hd : p.rest.drop (positional line limit p.rest).length = more := by
    have hl : (positional line limit p.rest ++ more).drop
        (positional line limit p.rest).length = more := List.drop_left
    rwa [he] at hl
  dsimp only
  rw [hd]
  refine (runs_skip h he.symm fun token hm => isPlain_of_mem_positional hm).bind ?_
  intro _ q hf hg
  exact .pure hf.sound (hg.weaken (Nat.zero_le _))

/-- The end of a line passes nothing. -/
theorem runs_expectLineEnd (h : p.Sound spots) (line : Int) :
    Runs spots p (expectLineEnd line) fun _ q => Goes 0 0 p q := by
  unfold expectLineEnd
  refine .current h ?_
  split
  · exact .failUnexpected h
  · exact .pure h (.refl p)

/-! ## Single tokens -/

/-- A token of one of some plain kinds is taken. -/
theorem runs_expect (h : p.Sound spots) {kinds : List Kind}
    (hk : ∀ kind ∈ kinds, isPlain kind = true) :
    Runs spots p (expect kinds) fun token q => token = p.next ∧ Goes 0 1 p q := by
  unfold expect
  refine .current h ?_
  split
  · rename_i hc
    refine (runs_advance_plain h (hk _ (List.contains_iff_mem.mp hc))).mono ?_
    intro token q _ hg
    exact ⟨hg.1, hg.2.2⟩
  · exact .failExpected h

/-- An opening brace is taken. -/
theorem runs_expectOpening (h : p.Sound spots) :
    Runs spots p expectOpening fun _ q => Opens p q := by
  have he : Runs spots p (expect [.sign .leftBrace]) fun _ q => Opens p q := by
    unfold expect
    refine .current h ?_
    split
    · rename_i hc
      exact runs_advance_opening h (by simpa using hc)
    · exact .failExpected h
  unfold expectOpening
  exact he.bind fun _ q hf ho => .pure hf.sound ho

/-- A string literal is taken. -/
theorem runs_expectString (h : p.Sound spots) (line : Int) (wanted : Wanted) :
    Runs spots p (expectString line wanted) fun _ q => Goes 0 1 p q := by
  unfold expectString
  refine .current h ?_
  split
  · rename_i hc
    simp only [Bool.and_eq_true, beq_iff_eq] at hc
    refine (runs_advance_plain h (isPlain_of_kind hc.1 rfl)).bind ?_
    intro _ q hf hg
    exact .pure hf.sound hg.2.2
  · exact .failExpected h

/-- A word, string literal or whole number is taken. -/
theorem runs_expectSingle (h : p.Sound spots) (line : Int) (wanted : Wanted) :
    Runs spots p (expectSingle line wanted) fun _ q => Goes 0 1 p q := by
  unfold expectSingle
  refine .current h ?_
  split
  · rename_i hc
    simp only [Bool.and_eq_true, Bool.or_eq_true, beq_iff_eq] at hc
    have hp : isPlain p.next.kind = true := by
      rcases hc.2 with (hk | hk) | hk <;> exact isPlain_of_kind hk rfl
    refine (runs_advance_plain h hp).bind ?_
    intro _ q hf hg
    exact .pure hf.sound hg.2.2
  · exact .failExpected h

/-- A body opens with a brace, or nothing is taken. -/
theorem runs_opensBody (h : p.Sound spots) (line : Int) :
    Runs spots p (opensBody line) fun opened q =>
      (opened = true ∧ Opens p q) ∨ (opened = false ∧ Goes 0 0 p q) := by
  unfold opensBody
  refine .current h ?_
  split
  · rename_i hc
    simp only [Bool.and_eq_true, beq_iff_eq] at hc
    refine (runs_advance_opening h hc.1).bind ?_
    intro _ q hf ho
    exact .pure hf.sound (.inl ⟨rfl, ho⟩)
  · exact .pure h (.inr ⟨rfl, .refl p⟩)

end Blueprint.Grammar
