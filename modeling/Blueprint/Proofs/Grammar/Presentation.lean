import Blueprint.Grammar.Presentation
import Blueprint.Proofs.Grammar.View

/-!
# Reading styles, themes, branding and terminology

Statements about the presentation are passed as a whole. They change nothing in the workspace that
refers to elements.
-/

namespace Blueprint.Grammar

open Blueprint.Declared Blueprint.Text

variable {spots : Position → Prop} {p q r : Progress}

/-- A style is passed as a whole. -/
theorem runs_readStyleOf (h : p.Sound spots) (hk : isPlain p.next.kind = true) (wanted : Wanted)
    (add : Style → Styles → Styles) :
    Runs spots p (readStyleOf p.next wanted add) fun _ q => Goes 0 1 p q := by
  unfold readStyleOf
  refine (runs_advance_plain h hk).bind ?_
  rintro _ q hf ⟨_, _, hq⟩
  refine (runs_expectString hf.sound _ _).bind ?_
  intro tag r hg hr
  refine (runs_readKeyValues hg.sound).bind ?_
  intro entries s hgs hs
  refine (runs_modifyWorkspace hgs.sound fun hw => ?_).mono ?_
  · exact ⟨hw.model, hw.views, hw.decisions, hw.directives⟩
  · intro _ t _ ht
    exact (((hq.trans hr).trans hs).trans ht).weaken (by omega)

/-- A style takes its word at least. -/
theorem steady_readStyle (bound : Nat) :
    Steady spots bound (fun _ => True) fun _ : Unit => readStyle := by
  intro p _ h _ _ _ _
  unfold readStyle
  refine .current h ?_
  split
  · rename_i hc
    simp only [Bool.and_eq_true, beq_iff_eq] at hc
    exact (runs_readStyleOf h (isPlain_of_kind hc.1 rfl) _ _).mono fun _ _ _ hq => ⟨trivial, hq⟩
  · split
    · rename_i hk
      exact (runs_readStyleOf h (isPlain_of_kind (eq_of_beq hk) rfl) _ _).mono
        fun _ _ _ hq => ⟨trivial, hq⟩
    · exact .failExpected h

/-- The block of styles is passed as a whole. -/
theorem runs_readStyles (h : p.Sound spots) (keyword : Token) :
    Runs spots p (readStyles keyword) fun _ q => Goes 0 0 p q := by
  unfold readStyles
  refine (runs_modifyWorkspace h fun hw => ?_).bind ?_
  · exact ⟨hw.model, hw.views, hw.decisions, hw.directives⟩
  · intro _ q hf hq
    refine (runs_expectOpening hf.sound).bind ?_
    intro _ r hg ho
    refine (runs_readBlockOf (steady_readStyle _) hg.sound (Nat.le_refl _)).mono ?_
    intro _ s _ hs
    exact (hq.trans (ho.trans hs)).weaken (Nat.zero_le _)

/-- Themes pass plain tokens. -/
theorem runs_readThemes (h : p.Sound spots) (keyword : Token) :
    Runs spots p (readThemes keyword) fun _ q => Goes 0 0 p q := by
  unfold readThemes
  refine (runs_takeValues h _).bind ?_
  intro urls q hf hq
  split
  · exact .current hf.sound (.failExpected hf.sound)
  · dsimp only
    refine (runs_modifyWorkspace hf.sound fun hw => ?_).mono fun _ r _ hr => hq.trans hr
    exact ⟨hw.model, hw.views, hw.decisions, hw.directives⟩

/-- A statement of the branding takes its word at least. -/
theorem steady_readBrandingStatement (bound : Nat) :
    Steady spots bound (fun _ => True) readBrandingStatement.fill := by
  intro p branding h _ _ hn _
  rw [fill_readBrandingStatement]
  refine (runs_advance h hn).bind ?_
  rintro _ q hf ⟨rfl, hr, hl, he⟩
  split
  · rename_i hw
    have hp : isPlain p.next.kind = true :=
      isPlain_of_lexeme h hn (by rw [eq_of_beq hw]; decide) (by rw [eq_of_beq hw]; decide)
    refine (runs_expectValue hf.sound _ _).bind ?_
    intro value r hg hr'
    exact .pure hg.sound ⟨trivial, (goes_of_plain hp hr hl he).trans hr'⟩
  · split
    · rename_i hw
      have hp : isPlain p.next.kind = true :=
        isPlain_of_lexeme h hn (by rw [eq_of_beq hw]; decide) (by rw [eq_of_beq hw]; decide)
      refine (runs_takeValues hf.sound _).bind ?_
      intro values r hg hr'
      split
      · exact .current hg.sound (.failExpected hg.sound)
      · exact .pure hg.sound ⟨trivial, (goes_of_plain hp hr hl he).trans hr'⟩
    · exact .fail hf.sound h.next_spot

/-- The block of the branding is passed as a whole. -/
theorem runs_readBranding (h : p.Sound spots) (keyword : Token) :
    Runs spots p (readBranding keyword) fun _ q => Goes 0 0 p q := by
  unfold readBranding
  refine (runs_expectOpening h).bind ?_
  intro _ q hf ho
  refine (runs_readBlock (steady_readBrandingStatement _) hf.sound (Nat.le_refl _)
    trivial).bind ?_
  rintro branding r hg ⟨_, hr⟩
  refine (runs_modifyWorkspace hg.sound fun hw => ?_).mono ?_
  · exact ⟨hw.model, hw.views, hw.decisions, hw.directives⟩
  · intro _ s _ hs
    exact ((ho.trans hr).trans hs).weaken (Nat.zero_le _)

/-- The block of the terminology is passed as a whole. -/
theorem runs_readTerminology (h : p.Sound spots) (keyword : Token) :
    Runs spots p (readTerminology keyword) fun _ q => Goes 0 0 p q := by
  unfold readTerminology
  refine (runs_readKeyValues h).bind ?_
  intro terms q hf hq
  refine (runs_modifyWorkspace hf.sound fun hw => ?_).mono ?_
  · exact ⟨hw.model, hw.views, hw.decisions, hw.directives⟩
  · intro _ r _ hr
    exact (hq.trans hr).weaken (Nat.zero_le _)

/-- A statement about the presentation takes its word at least; without one nothing is read. -/
theorem runs_readPresentation (h : p.Sound spots) :
    Runs spots p readPresentation fun found q =>
      (found = true ∧ Goes 0 1 p q) ∨ (found = false ∧ q = p) := by
  -- What follows the word is passed as a whole.
  have hafter : ∀ reader : Reader Unit, isPlain p.next.kind = true →
      (∀ q, q.Sound spots → Runs spots q reader fun _ r => Goes 0 0 q r) →
      Runs spots p (do
        let _ ← advance
        reader
        return true) fun found q =>
          (found = true ∧ Goes 0 1 p q) ∨ (found = false ∧ q = p) := by
    intro reader hp hr
    refine (runs_advance_plain h hp).bind ?_
    rintro _ q hf ⟨_, _, hq⟩
    refine (hr q hf.sound).bind ?_
    intro _ r hg hr
    exact .pure hg.sound (.inl ⟨rfl, hq.trans hr⟩)
  unfold readPresentation
  refine .current h ?_
  split
  · rename_i hk
    exact hafter _ (isPlain_of_kind hk rfl) fun q hs => runs_readStyles hs _
  · rename_i hk
    exact hafter _ (isPlain_of_kind hk rfl) fun q hs => runs_readThemes hs _
  · rename_i hk
    exact hafter _ (isPlain_of_kind hk rfl) fun q hs => runs_readBranding hs _
  · rename_i hk
    exact hafter _ (isPlain_of_kind hk rfl) fun q hs => runs_readTerminology hs _
  · rename_i hk
    split
    · exact hafter _ (isPlain_of_kind hk rfl) fun q hs => runs_readThemes hs _
    · exact .pure h (.inr ⟨rfl, rfl⟩)
  · exact .pure h (.inr ⟨rfl, rfl⟩)

end Blueprint.Grammar
