import Blueprint.Grammar.View
import Blueprint.Proofs.Grammar.Body

/-!
# Reading views

A view is passed as a whole, with the blocks of its animations and parallel steps, and everything in
it that refers to elements has its place.
-/

namespace Blueprint.Grammar

open Blueprint.Declared Blueprint.Text

variable {spots : Position → Prop} {p q r : Progress}

/-! ## Headers -/

/-- A scope takes a token at least. -/
theorem runs_readScope (h : p.Sound spots) (line : Int) :
    Runs spots p (readScope line) fun _ q => Goes 0 1 p q := by
  unfold readScope
  refine .current h ?_
  split
  · rename_i hc
    simp only [Bool.and_eq_true, beq_iff_eq] at hc
    refine (runs_advance_plain h (isPlain_of_kind hc.1 rfl)).bind ?_
    rintro _ q hf ⟨_, _, hq⟩
    exact .pure hf.sound hq
  · exact runs_readReference h line

/-- The end of a header passes plain tokens. -/
theorem runs_readKeyAndDescription (h : p.Sound spots) {position : Position}
    (hp : spots position) (line : Int) :
    Runs spots p (readKeyAndDescription position line) fun details q =>
      details.Located spots ∧ Goes 0 0 p q := by
  unfold readKeyAndDescription
  refine (runs_takePositional h line 2).bind ?_
  intro arguments q hf hq
  refine .pure hf.sound ⟨⟨⟨_, rfl, hp⟩, ?_, ?_, ?_⟩, hq⟩ <;>
    · intro item hm
      cases hm

/-- Behind what is read before, a header ends with a key and a description. A view has no steps yet,
whatever its sort. -/
theorem runs_headerEnd (hf : Follows spots p q) {count : Nat} (hq : Goes 0 count p q)
    {position : Position} (hp : spots position) (line : Int) {sort : ViewSort}
    (hs : ∀ scope steps, sort = .dynamic scope steps → steps = []) :
    Runs spots q (do
      let details ← readKeyAndDescription position line
      return (⟨details, sort⟩ : View)) fun view r => view.Located spots ∧ Goes 0 0 p r := by
  refine (runs_readKeyAndDescription hf.sound hp line).bind ?_
  rintro details r hg ⟨hd, hr⟩
  refine .pure hg.sound ⟨⟨hd, ?_⟩, (hq.trans hr).weaken (Nat.zero_le _)⟩
  intro scope steps he relationship hm
  rw [hs scope steps he] at hm
  cases hm

/-- The header of a view passes plain tokens, and the view stands where it starts. -/
theorem runs_readViewHeader (h : p.Sound spots) (word : ViewWord) {position : Position}
    (hp : spots position) (line : Int) :
    Runs spots p (readViewHeader word position line) fun view q =>
      view.Located spots ∧ Goes 0 0 p q := by
  unfold readViewHeader
  cases word with
  | systemLandscape => exact runs_headerEnd (.refl h) (.refl p) hp line (by simp)
  | systemContext =>
    refine (runs_readReference h line).bind ?_
    intro system q hf hq
    exact runs_headerEnd hf hq hp line (by simp)
  | container =>
    refine (runs_readReference h line).bind ?_
    intro system q hf hq
    exact runs_headerEnd hf hq hp line (by simp)
  | component =>
    refine (runs_readReference h line).bind ?_
    intro container q hf hq
    exact runs_headerEnd hf hq hp line (by simp)
  | dynamic =>
    refine (runs_readScope h line).bind ?_
    intro scope q hf hq
    refine runs_headerEnd hf hq hp line ?_
    rintro _ _ ⟨⟩
    rfl
  | deployment =>
    refine (runs_readScope h line).bind ?_
    intro scope q hf hq
    refine (runs_expectSingle hf.sound line _).bind ?_
    intro environment r hg hr
    exact runs_headerEnd (hf.trans hg) (hq.trans hr) hp line (by simp)
  | filtered =>
    refine (runs_expectSingle h line _).bind ?_
    intro base q hf hq
    refine (runs_expect hf.sound (by simp [isPlain])).bind ?_
    rintro mode r hg ⟨_, hr⟩
    refine (runs_expectSingle hg.sound line _).bind ?_
    intro tags s hgs hs
    exact runs_headerEnd ((hf.trans hg).trans hgs) ((hq.trans hr).trans hs) hp line (by simp)
  | custom =>
    refine (runs_takePositional h line 3).bind ?_
    intro arguments q hf hq
    refine .pure hf.sound ⟨View.located_of_details ⟨⟨_, rfl, hp⟩, ?_, ?_, ?_⟩ (by simp), hq⟩ <;>
      · intro item hm
        cases hm
  | image =>
    refine (runs_readScope h line).bind ?_
    intro scope q hf hq
    refine (runs_takePositional hf.sound line 1).bind ?_
    intro arguments r hg hr
    refine .pure hg.sound ⟨View.located_of_details ⟨⟨_, rfl, hp⟩, ?_, ?_, ?_⟩ (by simp),
      (hq.trans hr).weaken (Nat.zero_le _)⟩ <;>
      · intro item hm
        cases hm

/-! ## Expressions -/

/-- A term takes a token at least. -/
theorem runs_readTerm (h : p.Sound spots) (line : Int) :
    Runs spots p (readTerm line) fun _ q => Goes 0 1 p q := by
  unfold readTerm
  refine .current h ?_
  split
  · rename_i hc
    simp only [Bool.and_eq_true, beq_iff_eq] at hc
    refine (runs_advance_plain h (isPlain_of_kind hc.1 rfl)).bind ?_
    rintro _ q hf ⟨_, _, hq⟩
    exact .pure hf.sound hq
  · split
    · rename_i hc
      simp only [Bool.and_eq_true, beq_iff_eq] at hc
      refine (runs_advance_plain h (isPlain_of_kind hc.1 rfl)).bind ?_
      rintro _ q hf ⟨_, _, hq⟩
      exact .pure hf.sound hq
    · split
      · exact runs_readReference h line
      · exact .failUnexpected h

/-- Every term takes a token at least. -/
theorem runs_readTermsWithin (h : p.Sound spots) (line : Int) (count : Nat) :
    Runs spots p (readTermsWithin line count) fun terms q => Goes 0 terms.length p q := by
  induction count generalizing p with
  | zero =>
    rw [readTermsWithin]
    exact .pure h (.refl p)
  | succ count ih =>
    rw [readTermsWithin]
    refine .current h ?_
    split
    · refine (runs_readTerm h line).bind ?_
      intro term q hf hq
      refine (ih hf.sound).bind ?_
      intro more r hg hr
      refine .pure hg.sound ((hq.trans hr).weaken ?_)
      rw [List.length_cons]
      omega
    · exact .pure h (.refl p)

/-- Every expression takes a token at least. -/
theorem runs_readExpressionsWithin (h : p.Sound spots) (line : Int) (count : Nat) :
    Runs spots p (readExpressionsWithin line count) fun expressions q =>
      Goes 0 expressions.length p q := by
  induction count generalizing p with
  | zero =>
    rw [readExpressionsWithin]
    exact .pure h (.refl p)
  | succ count ih =>
    rw [readExpressionsWithin]
    refine .current h ?_
    split
    · refine (runs_readTerm h line).bind ?_
      intro left q hf hq
      refine .current hf.sound ?_
      split
      · rename_i hc
        simp only [Bool.and_eq_true, beq_iff_eq] at hc
        refine (runs_advance_plain hf.sound (isPlain_of_kind hc.1 rfl)).bind ?_
        rintro _ r hg ⟨_, _, hr⟩
        refine (runs_readTerm hg.sound line).bind ?_
        intro right s hgs hs
        refine (ih hgs.sound).bind ?_
        intro more t hgt ht
        refine .pure hgt.sound ((((hq.trans hr).trans hs).trans ht).weaken ?_)
        rw [List.length_cons]
        omega
      · refine (ih hf.sound).bind ?_
        intro more r hg hr
        refine .pure hg.sound ((hq.trans hr).weaken ?_)
        rw [List.length_cons]
        omega
    · exact .pure h (.refl p)

/-- The expressions after a keyword stand where the keyword stands. -/
theorem runs_readExpressions (h : p.Sound spots) {keyword : Token}
    (hk : spots keyword.position) :
    Runs spots p (readExpressions keyword) fun selections q =>
      (∀ selection ∈ selections, Marked spots selection.position) ∧ Goes 0 0 p q := by
  unfold readExpressions
  refine .remaining ((runs_readExpressionsWithin h _ _).bind ?_)
  intro expressions q hf hq
  split
  · exact .current hf.sound (.failExpected hf.sound)
  · refine .pure hf.sound ⟨?_, hq.weaken (Nat.zero_le _)⟩
    intro selection hm
    obtain ⟨expression, _, rfl⟩ := List.mem_map.mp hm
    exact ⟨_, rfl, hk⟩

/-! ## Layouts, animations and interactions -/

/-- A word is passed if it stands next. -/
theorem runs_takeWord? (h : p.Sound spots) (line : Int) :
    Runs spots p (takeWord? line) fun _ q => Goes 0 0 p q := by
  unfold takeWord?
  refine .current h ?_
  split
  · rename_i hc
    simp only [Bool.and_eq_true] at hc
    refine (runs_advance_plain h (isPlain_of_onLine hc.1)).bind ?_
    rintro _ q hf ⟨_, _, hq⟩
    exact .pure hf.sound (hq.weaken (Nat.zero_le _))
  · exact .pure h (.refl p)

/-- A whole number is passed if it stands next. -/
theorem runs_takeInteger? (h : p.Sound spots) (line : Int) :
    Runs spots p (takeInteger? line) fun _ q => Goes 0 0 p q := by
  unfold takeInteger?
  refine .current h ?_
  split
  · rename_i hc
    split
    · refine (runs_advance_plain h (isPlain_of_onLine hc)).bind ?_
      rintro _ q hf ⟨_, _, hq⟩
      exact .pure hf.sound (hq.weaken (Nat.zero_le _))
    · exact .pure h (.refl p)
  · exact .pure h (.refl p)

/-- A layout passes plain tokens. -/
theorem runs_readAutoLayout (h : p.Sound spots) (keyword : Token) :
    Runs spots p (readAutoLayout keyword) fun _ q => Goes 0 0 p q := by
  unfold readAutoLayout
  dsimp only
  refine (runs_takeWord? h _).bind ?_
  intro direction q hf hq
  refine (runs_takeInteger? hf.sound _).bind ?_
  intro rankSeparation r hg hr
  refine (runs_takeInteger? hg.sound _).bind ?_
  intro nodeSeparation s hgs hs
  refine (runs_expectLineEnd hgs.sound _).bind ?_
  intro _ t hgt ht
  exact .pure hgt.sound (((hq.trans hr).trans hs).trans ht)

/-- A step of an animation takes a token at least. -/
theorem steady_readAnimationStep (bound : Nat) :
    Steady spots bound (fun animation => Marked spots animation.position)
      readAnimationStep.fill := by
  intro p animation h _ _ _ ha
  rw [fill_readAnimationStep]
  unfold readTerms
  refine .current h (Runs.bind (.remaining (runs_readTermsWithin h _ _)) ?_)
  intro terms q hf hq
  split
  · exact .fail hf.sound h.next_spot
  · rename_i hn
    refine .pure hf.sound ⟨ha, hq.weaken ?_⟩
    exact List.length_pos_iff.mpr fun he => hn he

/-- An animation is passed as a whole, and stands where its keyword stands. -/
theorem runs_readAnimation (h : p.Sound spots) {keyword : Token} (hk : spots keyword.position) :
    Runs spots p (readAnimation keyword) fun animation q =>
      Marked spots animation.position ∧ Goes 0 0 p q := by
  unfold readAnimation
  refine (runs_expectOpening h).bind ?_
  intro _ q hf ho
  refine (runs_readBlock (steady_readAnimationStep _) hf.sound (Nat.le_refl _) ⟨_, rfl, hk⟩).mono ?_
  rintro animation r _ ⟨hm, hr⟩
  exact ⟨hm, (ho.trans hr).weaken (Nat.zero_le _)⟩

/-- An interaction is passed as a whole. -/
theorem runs_readInteraction (h : p.Sound spots) :
    Runs spots p readInteraction fun relationship q =>
      Marked spots relationship.position ∧ Goes 0 1 p q := by
  unfold readInteraction
  refine .current h (.remaining ?_)
  split
  · exact runs_readRelationship h none h.next_spot false
  · exact .failExpected h

/-- A step of a dynamic view takes a token at least. -/
theorem steady_readDynamicStep (bound : Nat) :
    Steady spots bound (View.Located spots) readDynamicStep.fill := by
  intro p view h _ _ _ hv
  rw [fill_readDynamicStep]
  refine (runs_readInteraction h).bind ?_
  rintro step q hf ⟨hm, hq⟩
  exact .pure hf.sound ⟨hv.addStep hm, hq⟩

/-! ## Statements -/

/-- A token that is written like no brace, before the end, is plain. -/
theorem isPlain_of_lexeme (h : p.Sound spots) (hn : p.next.kind ≠ .endOfInput)
    (ho : p.next.lexeme ≠ Sign.leftBrace.spelling)
    (hc : p.next.lexeme ≠ Sign.rightBrace.spelling) : isPlain p.next.kind = true := by
  unfold isPlain
  split
  · rename_i hk
    exact absurd (h.spelled _ h.next_mem _ hk) ho
  · rename_i hk
    exact absurd (h.spelled _ h.next_mem _ hk) hc
  · rename_i hk
    exact absurd hk hn
  · rfl

/-- A statement of views of one sort takes a token at least. -/
theorem runs_readSortStatement (h : p.Sound spots) (hk : p.next.kind ≠ .sign .rightBrace)
    (hn : p.next.kind ≠ .endOfInput) {view : View} (hv : view.Located spots) :
    Runs spots p (readSortStatement.fill view) fun next q => next.Located spots ∧ Goes 0 1 p q := by
  rw [fill_readSortStatement]
  refine .current h ?_
  split
  · split
    · rename_i hb
      refine (runs_advance_opening h (eq_of_beq hb)).bind ?_
      intro _ q hf ho
      refine (runs_readBlock (steady_readDynamicStep _) hf.sound (Nat.le_refl _) hv).mono ?_
      rintro next r _ ⟨hn, hr⟩
      exact ⟨hn, ho.trans hr⟩
    · refine .remaining ?_
      split
      · exact steady_readDynamicStep _ p view h (Nat.le_refl _) hk hn hv
      · exact .failUnexpected h
  · split
    · rename_i hi
      have hm := List.contains_iff_mem.mp hi
      have hp : isPlain p.next.kind = true := by
        refine isPlain_of_lexeme h hn ?_ ?_ <;>
          · intro he
            rw [he] at hm
            revert hm
            decide
      refine (runs_advance_plain h hp).bind ?_
      rintro _ q hf ⟨_, _, hq⟩
      refine (runs_expectValue hf.sound _ _).bind ?_
      intro content r hg hr
      exact .pure hg.sound ⟨View.located_of_details hv.details (by simp), hq.trans hr⟩
    · exact .failUnexpected h
  · exact .failUnexpected h

/-- The selections of a statement join the details of a view. -/
theorem runs_selections (h : p.Sound spots) (hp : isPlain p.next.kind = true) {view : View}
    (hv : view.Located spots) {change : List Selection → ViewDetails}
    (hc : ∀ more, (∀ selection ∈ more, Marked spots selection.position) →
      (change more).Located spots) :
    Runs spots p (do
      let _ ← advance
      let more ← readExpressions p.next
      return { view with details := change more }) fun next q =>
        next.Located spots ∧ Goes 0 1 p q := by
  refine (runs_advance_plain h hp).bind ?_
  rintro _ q hf ⟨_, _, hq⟩
  refine (runs_readExpressions hf.sound h.next_spot).bind ?_
  rintro more r hg ⟨hm, hr⟩
  exact .pure hg.sound ⟨hv.withDetails (hc more hm), hq.trans hr⟩

/-- The text of a statement joins the details of a view. -/
theorem runs_text (h : p.Sound spots) (hp : isPlain p.next.kind = true) {view : View}
    (hv : view.Located spots) {wanted : Wanted} {change : String → ViewDetails}
    (hc : ∀ value, (change value).Located spots) :
    Runs spots p (do
      let _ ← advance
      let value ← expectValue p.next.line wanted
      return { view with details := change value }) fun next q =>
        next.Located spots ∧ Goes 0 1 p q := by
  refine (runs_advance_plain h hp).bind ?_
  rintro _ q hf ⟨_, _, hq⟩
  refine (runs_expectValue hf.sound _ _).bind ?_
  intro value r hg hr
  exact .pure hg.sound ⟨hv.withDetails (hc value), hq.trans hr⟩

/-- A statement of a view takes a token at least. -/
theorem steady_readViewStatement (bound : Nat) :
    Steady spots bound (View.Located spots) readViewStatement.fill := by
  intro p view h _ hb hn hv
  have hd := hv.details
  rw [fill_readViewStatement]
  refine .current h ?_
  dsimp only
  split
  · rename_i hk
    exact runs_selections h (isPlain_of_kind hk rfl) hv fun more hm =>
      ⟨hd.1, List.forall_mem_append.mpr ⟨hd.2, hm⟩, hd.3, hd.4⟩
  · rename_i hk
    exact runs_selections h (isPlain_of_kind hk rfl) hv fun more hm =>
      ⟨hd.1, hd.2, List.forall_mem_append.mpr ⟨hd.3, hm⟩, hd.4⟩
  · rename_i hk
    refine (runs_advance_plain h (isPlain_of_kind hk rfl)).bind ?_
    rintro _ q hf ⟨_, _, hq⟩
    refine (runs_readAutoLayout hf.sound _).bind ?_
    intro layout r hg hr
    exact .pure hg.sound ⟨hv.withDetails ⟨hd.1, hd.2, hd.3, hd.4⟩, hq.trans hr⟩
  · rename_i hk
    refine (runs_advance_plain h (isPlain_of_kind hk rfl)).bind ?_
    rintro _ q hf ⟨_, _, hq⟩
    refine (runs_readAnimation hf.sound h.next_spot).bind ?_
    rintro animation r hg ⟨hm, hr⟩
    refine .pure hg.sound ⟨hv.withDetails ⟨hd.1, hd.2, hd.3, ?_⟩, hq.trans hr⟩
    exact List.forall_mem_append.mpr ⟨hd.4, List.forall_mem_singleton.mpr hm⟩
  · rename_i hk
    exact runs_text h (isPlain_of_kind hk rfl) hv fun value => ⟨hd.1, hd.2, hd.3, hd.4⟩
  · rename_i hk
    exact runs_text h (isPlain_of_kind hk rfl) hv fun value => ⟨hd.1, hd.2, hd.3, hd.4⟩
  · rename_i hk
    refine (runs_advance_plain h (isPlain_of_kind hk rfl)).bind ?_
    rintro _ q hf ⟨_, _, hq⟩
    refine (runs_readKeyValues hf.sound).bind ?_
    intro entries r hg hr
    exact .pure hg.sound ⟨hv.withDetails ⟨hd.1, hd.2, hd.3, hd.4⟩,
      (hq.trans hr).weaken (by omega)⟩
  · exact runs_readSortStatement h hb hn hv

/-- What a failing statement leaves in a view has its place. -/
theorem located_leaveInView (first : Token) {view : View} (hv : view.Located spots) :
    (leaveInView first view).Located spots := by
  unfold leaveInView takeForm
  split
  · exact hv
  · split
    · split
      · exact View.located_of_details hv.details (by simp)
      · exact hv
    · exact hv

/-- A word that declares a view is plain. -/
theorem isPlain_of_viewWord {kind : Kind} {word : ViewWord}
    (h : ViewWord.ofKind? kind = some word) : isPlain kind = true := by
  unfold ViewWord.ofKind? at h
  split at h <;> first | rfl | cases h

/-- A view is passed as a whole, and everything in it has its place. -/
theorem runs_readView (h : p.Sound spots) (hk : isPlain p.next.kind = true) (word : ViewWord) :
    Runs spots p (readView word) fun view q => view.Located spots ∧ Goes 0 1 p q := by
  unfold readView
  refine (runs_advance_plain h hk).bind ?_
  rintro _ q hf ⟨rfl, _, hq⟩
  refine (runs_readViewHeader hf.sound word h.next_spot _).bind ?_
  rintro view r hg ⟨hv, hr⟩
  refine (runs_expectLineEnd hg.sound _).bind ?_
  intro _ s hgs hs
  have hgo := (hq.trans hr).trans hs
  refine .isSign hgs.sound ?_
  split
  · rename_i hb
    refine (runs_advance_opening hgs.sound (eq_of_beq hb)).bind ?_
    intro _ t hgt ho
    rw [readBlock_readViewStatement]
    refine (runs_readBlockLeaving (steady_readViewStatement _)
      (fun first _ hl => located_leaveInView first hl) hgt.sound (Nat.le_refl _) hv).mono ?_
    rintro next u _ ⟨hn, hu⟩
    exact ⟨hn, (hgo.trans (ho.trans hu)).weaken (by omega)⟩
  · split
    · exact .pure hgs.sound ⟨hv, hgo⟩
    · exact .current hgs.sound (.failExpected hgs.sound)

end Blueprint.Grammar
