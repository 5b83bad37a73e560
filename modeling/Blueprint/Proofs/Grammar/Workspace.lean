import Blueprint.Grammar.Workspace
import Blueprint.Proofs.Grammar.Documentation

/-!
# Reading a workspace

The workspace is passed as a whole, and everything in it has its place. A source is read up to the
end of its tokens, or there is an error; no failed statement is left over.
-/

namespace Blueprint.Grammar

open Blueprint.Declared Blueprint.Text

variable {spots : Position → Prop} {p q r : Progress}

/-! ## Views -/

/-- A change of the views that keeps them at their places passes nothing. -/
theorem runs_modifyViews (h : p.Sound spots) {change : Views → Views}
    (hc : ∀ block, (∀ view ∈ block.views, View.Located spots view) →
      ∀ view ∈ (change block).views, View.Located spots view) :
    Runs spots p (modifyViews change) fun _ q => Goes 0 0 p q := by
  unfold modifyViews
  refine runs_modifyWorkspace h fun hw => ?_
  refine ⟨hw.model, ?_, hw.decisions, hw.directives⟩
  intro block hb
  obtain ⟨before, hm, rfl⟩ := Option.map_eq_some_iff.mp hb
  exact hc before (hw.views before hm)

/-- A statement of the views takes a token at least. -/
theorem steady_readViewsStatement (bound : Nat) :
    Steady spots bound (fun _ => True) fun _ : Unit => readViewsStatement := by
  intro p _ h _ _ _ _
  unfold readViewsStatement
  refine .current h ?_
  split
  · rename_i word hw
    refine (runs_readView h (isPlain_of_viewWord hw) word).bind ?_
    rintro view q hf ⟨hv, hq⟩
    refine (runs_modifyViews hf.sound ?_).mono fun _ r _ hr => ⟨trivial, hq.trans hr⟩
    exact fun block hb => (forall_mem_insertByRank ..).mpr ⟨hv, hb⟩
  · split
    · rename_i hk
      have hp : isPlain p.next.kind = true := by
        simp only [Bool.or_eq_true, beq_iff_eq] at hk
        rcases hk with hk | hk <;> exact isPlain_of_kind hk rfl
      refine (runs_advance_plain h hp).bind ?_
      rintro _ q hf ⟨_, _, hq⟩
      refine (runs_readKeyValues hf.sound).bind ?_
      intro entries r hg hr
      refine (runs_modifyViews hg.sound ?_).mono ?_
      · intro block hb
        exact hb
      · intro _ s _ hs
        exact ⟨trivial, ((hq.trans hr).trans hs).weaken (by omega)⟩
    · split
      · rename_i hd
        exact (runs_readDirective h hd).mono fun _ _ _ hq => ⟨trivial, hq⟩
      · refine (runs_readPresentation h).bind ?_
        rintro found q hf (⟨rfl, hq⟩ | ⟨rfl, rfl⟩)
        · exact .pure hf.sound ⟨trivial, hq⟩
        · exact .failUnexpected h

/-- The block of the views is passed as a whole. -/
theorem runs_readViews (h : p.Sound spots) (hk : isPlain p.next.kind = true) :
    Runs spots p readViews fun _ q => Goes 0 1 p q := by
  unfold readViews
  refine (runs_advance_plain h hk).bind ?_
  rintro keyword q hf ⟨_, _, hq⟩
  refine (runs_modifyWorkspace hf.sound fun hw => ?_).bind ?_
  · refine ⟨hw.model, ?_, hw.decisions, hw.directives⟩
    rintro _ ⟨⟩
    cases hb : q.workspace.views with
    | none =>
      intro view hm
      cases hm
    | some block => exact hw.views block hb
  · intro _ r hg hr
    refine (runs_expectOpening hg.sound).bind ?_
    intro _ s hgs ho
    refine (runs_readBlockOf (steady_readViewsStatement _) hgs.sound (Nat.le_refl _)).mono ?_
    intro _ t _ ht
    exact ((hq.trans hr).trans (ho.trans ht)).weaken (by omega)

/-! ## The workspace -/

/-- Texts and entries behind a keyword are kept in the workspace itself. -/
theorem runs_kept {α : Type} (h : p.Sound spots) (hp : isPlain p.next.kind = true)
    {read : Reader α} (change : α → Workspace → Workspace)
    (hr : ∀ q, q.Sound spots → Runs spots q read fun _ r => Goes 0 0 q r)
    (hc : ∀ value workspace, Workspace.Located spots workspace →
      (change value workspace).Located spots) :
    Runs spots p (do
      let _ ← advance
      let value ← read
      modifyWorkspace (change value)) fun _ q => True ∧ Goes 0 1 p q := by
  refine (runs_advance_plain h hp).bind ?_
  rintro _ q hf ⟨_, _, hq⟩
  refine (hr q hf.sound).bind ?_
  intro value r hg hr
  exact (runs_modifyWorkspace hg.sound (hc value _)).mono fun _ s _ hs =>
    ⟨trivial, (hq.trans hr).trans hs⟩

/-- A statement of the workspace takes a token at least. -/
theorem steady_readWorkspaceStatement (bound : Nat) :
    Steady spots bound (fun _ => True) fun _ : Unit => readWorkspaceStatement := by
  intro p _ h _ _ _ _
  have hentries : ∀ q : Progress, q.Sound spots →
      Runs spots q readKeyValues fun _ r => Goes 0 0 q r := fun q hs =>
    (runs_readKeyValues hs).mono fun _ _ _ hr => hr.weaken (Nat.zero_le _)
  unfold readWorkspaceStatement
  refine .current h ?_
  split
  · rename_i hk
    exact runs_kept h (isPlain_of_kind hk rfl)
      (fun name workspace => { workspace with name := some name })
      (fun q hs => runs_expectValue hs _ _) fun _ _ hw => ⟨hw.1, hw.2, hw.3, hw.4⟩
  · rename_i hk
    exact runs_kept h (isPlain_of_kind hk rfl)
      (fun description workspace => { workspace with description := some description })
      (fun q hs => runs_expectValue hs _ _) fun _ _ hw => ⟨hw.1, hw.2, hw.3, hw.4⟩
  · rename_i hk
    exact (runs_readModel h (isPlain_of_kind hk rfl)).mono fun _ _ _ hq => ⟨trivial, hq⟩
  · rename_i hk
    exact (runs_readViews h (isPlain_of_kind hk rfl)).mono fun _ _ _ hq => ⟨trivial, hq⟩
  · rename_i hk
    exact runs_kept h (isPlain_of_kind hk rfl) (fun entries workspace =>
        { workspace with configuration := mergeInto workspace.configuration entries })
      hentries fun _ _ hw => ⟨hw.1, hw.2, hw.3, hw.4⟩
  · rename_i hk
    exact runs_kept h (isPlain_of_kind hk rfl) (fun entries workspace =>
        { workspace with properties := mergeInto workspace.properties entries })
      hentries fun _ _ hw => ⟨hw.1, hw.2, hw.3, hw.4⟩
  · rename_i hk
    exact (runs_readDocumentation h (isPlain_of_kind hk rfl)).mono
      fun _ _ _ hq => ⟨trivial, hq⟩
  · rename_i hk
    refine (runs_advance_plain h (isPlain_of_kind hk rfl)).bind ?_
    rintro _ q hf ⟨_, _, hq⟩
    exact (runs_readDecisions hf.sound).mono fun _ r _ hr => ⟨trivial, hq.trans hr⟩
  · split
    · rename_i hd
      exact (runs_readDirective h hd).mono fun _ _ _ hq => ⟨trivial, hq⟩
    · refine (runs_readPresentation h).bind ?_
      rintro found q hf (⟨rfl, hq⟩ | ⟨rfl, rfl⟩)
      · exact .pure hf.sound ⟨trivial, hq⟩
      · exact .failUnexpected h

/-- The workspace is passed as a whole. -/
theorem runs_readWorkspace (h : p.Sound spots) (hk : isPlain p.next.kind = true) :
    Runs spots p readWorkspace fun _ q => Goes 0 1 p q := by
  unfold readWorkspace
  refine (runs_advance_plain h hk).bind ?_
  rintro keyword q hf ⟨_, _, hq⟩
  refine (runs_takePositional hf.sound _ _).bind ?_
  intro arguments r hg hr
  refine (runs_modifyWorkspace hg.sound fun hw => ?_).bind ?_
  · exact ⟨hw.model, hw.views, hw.decisions, hw.directives⟩
  · intro _ s hgs hs
    refine (runs_expectLineEnd hgs.sound _).bind ?_
    intro _ t hgt ht
    refine (runs_expectOpening hgt.sound).bind ?_
    intro _ u hgu ho
    refine (runs_readBlockOf (steady_readWorkspaceStatement _) hgu.sound
      (Nat.le_refl _)).mono ?_
    intro _ v _ hv
    exact ((((hq.trans hr).trans hs).trans ht).trans (ho.trans hv)).weaken (by omega)

/-! ## The source -/

/-- What an attempt does first without failing is done before the attempt. -/
theorem run_attempt_bind {α β : Type} {first : Reader α} {next : α → Reader β}
    {recover : GrammarError → Reader β} {value : α}
    (hf : first.run.run p = (.ok value, q)) :
    (attempt (first >>= next) recover).run.run p =
      (attempt (next value) recover).run.run q := by
  rw [run_attempt, run_attempt, run_bind, hf]

/-- A directive before the workspace takes a token, even if it fails. -/
theorem runs_skipDirective (h : p.Sound spots) (hd : isDirective p.next = true) :
    Runs spots p (readOrSkip readDirective) fun _ q => Goes 0 1 p q := by
  have ha := runs_advance_plain h (isPlain_of_isDirective hd)
  have he := run_advance h
  unfold Runs at ha ⊢
  rw [he] at ha
  obtain ⟨hf, _, _, hq⟩ := ha
  unfold readOrSkip readDirective
  rw [run_attempt_bind he]
  have hs := runs_readOrSkip (runs_readDirectiveAfter hf.sound h.next_spot)
  exact Lands.of_follows hf (Lands.mono hs fun _ r _ hr => hq.trans hr)

/-- The directives before the workspace are passed, and then comes none. -/
theorem runs_readDirectives (h : p.Sound spots) {count : Nat} (hc : p.rest.length ≤ count) :
    Runs spots p (readDirectives count) fun _ q => Goes 0 0 p q := by
  induction count generalizing p with
  | zero =>
    have := h.rest_pos
    omega
  | succ count ih =>
    rw [readDirectives]
    refine .current h ?_
    split
    · rename_i hd
      refine (runs_skipDirective h hd).bind ?_
      intro _ q hf hq
      have ht := hq.taken
      exact (ih hf.sound (by omega)).mono fun _ r _ hr =>
        (hq.trans hr).weaken (Nat.zero_le _)
    · exact .pure h (.refl p)

/-- A source is passed up to its end, or there is an error. -/
theorem runs_readSource (h : p.Sound spots) :
    Runs spots p readSource fun _ q =>
      Goes 0 0 p q ∧ (q.errors = 0 → q.next.kind = .endOfInput) := by
  unfold readSource
  refine .remaining ((runs_readDirectives h (Nat.le_refl _)).bind ?_)
  intro _ q hf hq
  refine .current hf.sound ?_
  split
  · rename_i hk
    have hw := runs_readWorkspace hf.sound (isPlain_of_kind (eq_of_beq hk) rfl)
    refine (runs_readOrSkip (hw.mono fun _ _ _ hr => hr.weaken (Nat.zero_le _))).bind ?_
    intro _ r hg hr
    refine .current hg.sound ?_
    split
    · refine (runs_report hg.sound hg.sound.next_spot).mono ?_
      rintro _ s hs ⟨_, he⟩
      have hle := ((hf.trans hg).trans hs)
      exact ⟨⟨hle.errors, hle.rest.length_le, by omega⟩, by omega⟩
    · rename_i he
      exact .pure hg.sound ⟨hq.trans hr, fun _ => by simpa using he⟩
  · refine (runs_report hf.sound hf.sound.next_spot).mono ?_
    rintro _ r hr ⟨_, he⟩
    have hle := hf.trans hr
    exact ⟨⟨hle.errors, hle.rest.length_le, by omega⟩, by omega⟩

end Blueprint.Grammar
