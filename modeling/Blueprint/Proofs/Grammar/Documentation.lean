import Blueprint.Proofs.Grammar.Presentation

/-!
# Reading documentation and decisions

Sections and decisions are passed as a whole, and decisions have places. A place of a section that
is written in digits but is no number is noted, and reading ends there.
-/

namespace Blueprint.Grammar

open Blueprint.Declared Blueprint.Text

variable {spots : Position → Prop} {p q r : Progress}

/-! ## Values -/

/-- A value after its keyword passes plain tokens. -/
theorem runs_readAssigned (h : p.Sound spots) (keyword : Token) :
    Runs spots p (readAssigned keyword) fun _ q => Goes 0 0 p q := by
  unfold readAssigned
  refine .current h ?_
  dsimp only
  split
  · rename_i hc
    simp only [Bool.and_eq_true, beq_iff_eq] at hc
    refine (runs_advance_plain h (isPlain_of_kind hc.1 rfl)).bind ?_
    rintro _ q hf ⟨_, _, hq⟩
    exact (runs_expectValue hf.sound _ _).mono fun _ r _ hr =>
      (hq.trans hr).weaken (Nat.zero_le _)
  · exact runs_expectValue h _ _

/-- A value that is noted as the place of a section and can be read, or is not written in digits,
changes nothing else. -/
theorem runs_noteOrder (h : p.Sound spots) {value : String} (hv : ¬Unreadable value) :
    Runs spots p (note (.order value)) fun _ q => Goes 0 0 p q := by
  refine .of_ok rfl ⟨List.suffix_rfl, Nat.le_refl _, h.ends, h.spelled, h.tokens, h.missing,
    h.errors, h.diagnostics, ?_, h.workspace⟩
    (.of_eq (Nat.le_refl _) rfl (p.keys_order value))
  intro other hm
  rw [p.orders_order] at hm
  rcases List.mem_append.mp hm with hm | hm
  · exact h.orders other hm
  · rw [List.mem_singleton.mp hm]
    exact hv

/-- The place of a section is a number, or the statement fails, or reading ends because the value
is written in digits that are no number. -/
theorem runs_readOrderValue (h : p.Sound spots) {keyword : Token} (hk : spots keyword.position)
    (value : String) :
    Runs spots p (readOrderValue keyword value) fun _ q => Goes 0 0 p q := by
  by_cases hv : Unreadable value
  · obtain ⟨hn, hd, fault, hf⟩ := id hv
    have hc : ¬(value.toList.isEmpty || !value.toList.all isDigitSign) = true := by
      simp [hd, hn]
    have he : (readOrderValue keyword value).run.run p =
        (.error (.fault fault), { p with trace := p.trace ++ [.order value] }) := by
      unfold readOrderValue
      dsimp only
      rw [if_neg hc, hf]
      rfl
    unfold Runs
    rw [he]
    refine ⟨value, ?_, hv⟩
    rw [p.orders_order]
    exact List.mem_append_right _ List.mem_cons_self
  · unfold readOrderValue
    refine (runs_noteOrder h hv).bind ?_
    intro _ q hf hq
    dsimp only
    split
    · exact .fail hf.sound hk
    · rename_i hc
      simp only [Bool.or_eq_true, Bool.not_eq_true', List.isEmpty_iff, not_or,
        Bool.not_eq_false] at hc
      split
      · exact .pure hf.sound hq
      · rename_i fault hr
        exact absurd ⟨hc.1, hc.2, fault, hr⟩ hv

/-- The place of a section passes plain tokens. -/
theorem runs_readOrder (h : p.Sound spots) {keyword : Token} (hk : spots keyword.position) :
    Runs spots p (readOrder keyword) fun _ q => Goes 0 0 p q := by
  unfold readOrder
  refine (runs_readAssigned h keyword).bind ?_
  intro value q hf hq
  exact (runs_readOrderValue hf.sound hk value).mono fun _ r _ hr => hq.trans hr

/-- A property takes its keyword at least. -/
theorem runs_property {α β : Type} (h : p.Sound spots) {kind : Kind} (hk : p.next.kind = kind)
    (hp : isPlain kind = true) {read : Reader α}
    (hr : ∀ q, q.Sound spots → Runs spots q read fun _ r => Goes 0 0 q r) {good : β → Prop}
    {change : α → β} (hg : ∀ value, good (change value)) :
    Runs spots p (do
      let _ ← advance
      let value ← read
      return change value) fun next q => good next ∧ Goes 0 1 p q := by
  refine (runs_advance_plain h (isPlain_of_kind hk hp)).bind ?_
  rintro _ q hf ⟨_, _, hq⟩
  refine (hr q hf.sound).bind ?_
  intro value r hs hr
  exact .pure hs.sound ⟨hg value, hq.trans hr⟩

/-! ## Sections -/

/-- A statement of a section takes its keyword at least. -/
theorem steady_readSectionStatement (bound : Nat) :
    Steady spots bound (fun _ => True) readSectionStatement.fill := by
  intro p part h _ _ _ _
  rw [fill_readSectionStatement]
  refine .current h ?_
  split
  · rename_i hk
    exact runs_property h hk rfl (fun q hs => runs_readAssigned hs _) fun _ => trivial
  · rename_i hk
    exact runs_property h hk rfl (fun q hs => runs_readAssigned hs _) fun _ => trivial
  · rename_i hk
    exact runs_property h hk rfl (fun q hs => runs_readOrder hs h.next_spot) fun _ => trivial
  · exact .failUnexpected h

/-- A section is passed as a whole. -/
theorem runs_readSection (h : p.Sound spots) (hk : isPlain p.next.kind = true) :
    Runs spots p readSection fun _ q => Goes 0 1 p q := by
  unfold readSection
  refine (runs_advance_plain h hk).bind ?_
  rintro _ q hf ⟨rfl, _, hq⟩
  refine (runs_expectString hf.sound _ _).bind ?_
  intro title r hg hr
  refine (runs_takePositional hg.sound _ _).bind ?_
  intro arguments s hgs hs
  dsimp only
  refine (runs_expectLineEnd hgs.sound _).bind ?_
  intro _ t hgt ht
  have hgo := ((hq.trans hr).trans hs).trans ht
  refine .isSign hgt.sound ?_
  split
  · rename_i hb
    refine (runs_advance_opening hgt.sound (eq_of_beq hb)).bind ?_
    intro _ u hgu ho
    refine (runs_readBlock (steady_readSectionStatement _) hgu.sound (Nat.le_refl _)
      trivial).mono ?_
    rintro _ v _ ⟨_, hv⟩
    exact (hgo.trans (ho.trans hv)).weaken (by omega)
  · exact .pure hgt.sound (hgo.weaken (by omega))

/-! ## Decisions -/

/-- A statement of a decision takes its keyword at least, and the decision keeps its place. -/
theorem steady_readDecisionStatement (bound : Nat) :
    Steady spots bound (fun decision => Marked spots decision.position)
      readDecisionStatement.fill := by
  intro p decision h _ _ _ hm
  rw [fill_readDecisionStatement]
  refine .current h ?_
  split
  · rename_i hk
    exact runs_property h hk rfl (fun q hs => runs_readAssigned hs _) fun _ => hm
  · rename_i hk
    exact runs_property h hk rfl (fun q hs => runs_readAssigned hs _) fun _ => hm
  · rename_i hk
    exact runs_property h hk rfl (fun q hs => runs_readAssigned hs _) fun _ => hm
  · rename_i hk
    exact runs_property h hk rfl (fun q hs => runs_readAssigned hs _) fun _ => hm
  · rename_i hk
    exact runs_property h hk rfl (fun q hs => runs_readAssigned hs _) fun _ => hm
  · rename_i hk
    split
    · refine (runs_advance_plain h (isPlain_of_kind hk rfl)).bind ?_
      rintro _ q hf ⟨_, _, hq⟩
      have hentries : ∀ r, r.Sound spots → Follows spots q r → Goes 0 0 q r →
          Runs spots r (do
            let entries ← readKeyValues
            return { decision with links := mergeInto decision.links entries })
            fun next s => Marked spots next.position ∧ Goes 0 1 p s := by
        intro r hs _ hr
        refine (runs_readKeyValues hs).bind ?_
        intro entries s hgs hgo
        exact .pure hgs.sound ⟨hm, ((hq.trans hr).trans hgo).weaken (by omega)⟩
      refine .isSign hf.sound ?_
      dsimp only
      split
      · rename_i he
        refine (runs_advance_plain hf.sound (isPlain_of_kind (eq_of_beq he) rfl)).bind ?_
        rintro _ r hg ⟨_, _, hr⟩
        exact hentries r hg.sound hg (hr.weaken (Nat.zero_le _))
      · exact hentries q hf.sound (.refl hf.sound) (.refl q)
    · exact .failUnexpected h
  · exact .failUnexpected h

/-- A decision is passed as a whole, and stands where its keyword stands. -/
theorem runs_readDecision (h : p.Sound spots) :
    Runs spots p readDecision fun decision q =>
      Marked spots decision.position ∧ Goes 0 1 p q := by
  unfold readDecision
  refine (runs_expect h (by simp [isPlain])).bind ?_
  rintro _ q hf ⟨rfl, hq⟩
  refine (runs_expectSingle hf.sound _ _).bind ?_
  intro id r hg hr
  refine (runs_expectLineEnd hg.sound _).bind ?_
  intro _ s hgs hs
  refine (runs_expectOpening hgs.sound).bind ?_
  intro _ t hgt ho
  refine (runs_readBlock (steady_readDecisionStatement _) hgt.sound (Nat.le_refl _)
    h.next_marked).mono ?_
  rintro decision u _ ⟨hm, hu⟩
  exact ⟨hm, (((hq.trans hr).trans hs).trans (ho.trans hu)).weaken (by omega)⟩

/-- A decision of a block takes a token at least. -/
theorem steady_readDecisionEntry (bound : Nat) :
    Steady spots bound (fun _ => True) fun _ : Unit => readDecisionEntry := by
  intro p _ h _ _ _ _
  unfold readDecisionEntry
  refine (runs_readDecision h).bind ?_
  rintro decision q hf ⟨hm, hq⟩
  refine (runs_modifyWorkspace hf.sound fun hw => ?_).mono ?_
  · refine ⟨hw.model, hw.views, ?_, hw.directives⟩
    intro other ho
    rcases List.mem_append.mp ho with ho | ho
    · exact hw.decisions other ho
    · rw [List.mem_singleton.mp ho]
      exact hm
  · intro _ r _ hr
    exact ⟨trivial, hq.trans hr⟩

/-- A block of decisions is passed as a whole. -/
theorem runs_readDecisions (h : p.Sound spots) :
    Runs spots p readDecisions fun _ q => Goes 0 0 p q := by
  unfold readDecisions
  refine (runs_expectOpening h).bind ?_
  intro _ q hf ho
  refine (runs_readBlockOf (steady_readDecisionEntry _) hf.sound (Nat.le_refl _)).mono ?_
  intro _ r _ hr
  exact (ho.trans hr).weaken (Nat.zero_le _)

/-! ## Documentation -/

/-- A change of the documentation passes nothing. -/
theorem runs_modifyDocumentation (h : p.Sound spots) (change : Documentation → Documentation) :
    Runs spots p (modifyDocumentation change) fun _ q => Goes 0 0 p q := by
  unfold modifyDocumentation
  refine runs_modifyWorkspace h fun hw => ?_
  exact ⟨hw.model, hw.views, hw.decisions, hw.directives⟩

/-- A statement of the documentation takes its keyword at least. -/
theorem steady_readDocumentationStatement (bound : Nat) :
    Steady spots bound (fun _ => True) fun _ : Unit => readDocumentationStatement := by
  intro p _ h _ _ _ _
  have htext : ∀ change : String → Documentation → Documentation,
      isPlain p.next.kind = true →
      Runs spots p (do
        let _ ← advance
        let value ← readAssigned p.next
        modifyDocumentation (change value)) fun _ q => True ∧ Goes 0 1 p q := by
    intro change hp
    refine (runs_advance_plain h hp).bind ?_
    rintro _ q hf ⟨_, _, hq⟩
    refine (runs_readAssigned hf.sound _).bind ?_
    intro value r hg hr
    exact (runs_modifyDocumentation hg.sound _).mono fun _ s _ hs =>
      ⟨trivial, (hq.trans hr).trans hs⟩
  unfold readDocumentationStatement
  refine .current h ?_
  split
  · rename_i hk
    exact htext (fun value block => { block with content := some value })
      (isPlain_of_kind hk rfl)
  · rename_i hk
    exact htext (fun value block => { block with format := value }) (isPlain_of_kind hk rfl)
  · rename_i hk
    refine (runs_readSection h (isPlain_of_kind hk rfl)).bind ?_
    intro part q hf hq
    exact (runs_modifyDocumentation hf.sound _).mono fun _ r _ hr => ⟨trivial, hq.trans hr⟩
  · rename_i hk
    refine (runs_advance_plain h (isPlain_of_kind hk rfl)).bind ?_
    rintro _ q hf ⟨_, _, hq⟩
    exact (runs_readDecisions hf.sound).mono fun _ r _ hr => ⟨trivial, hq.trans hr⟩
  · exact .failUnexpected h

/-- The block of the documentation is passed as a whole. -/
theorem runs_readDocumentation (h : p.Sound spots) (hk : isPlain p.next.kind = true) :
    Runs spots p readDocumentation fun _ q => Goes 0 1 p q := by
  unfold readDocumentation
  refine (runs_advance_plain h hk).bind ?_
  rintro keyword q hf ⟨_, _, hq⟩
  refine (runs_modifyWorkspace hf.sound fun hw => ?_).bind ?_
  · exact ⟨hw.model, hw.views, hw.decisions, hw.directives⟩
  · intro _ r hg hr
    refine (runs_expectOpening hg.sound).bind ?_
    intro _ s hgs ho
    refine (runs_readBlockOf (steady_readDocumentationStatement _) hgs.sound
      (Nat.le_refl _)).mono ?_
    intro _ t _ ht
    exact ((hq.trans hr).trans (ho.trans ht)).weaken (by omega)

end Blueprint.Grammar
