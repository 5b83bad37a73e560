import Blueprint.Proofs.Grammar.Block

/-!
# Reading properties

Keys and values pass whole blocks, however deep; the keys are noted as they are passed. A property
statement takes its word at least.
-/

namespace Blueprint.Grammar

open Blueprint.Declared Blueprint.Text

variable {spots : Position → Prop} {p q r : Progress}

/-- A block of keys and values passes whole blocks while no more than a number of tokens is
left. -/
def ReadsBlock (spots : Position → Prop) (bound : Nat) (block : Reader Properties) : Prop :=
  ∀ p : Progress, p.Sound spots → p.rest.length ≤ bound →
    Runs spots p block fun _ q => Goes 0 1 p q

/-- An entry takes its key at least. -/
theorem steady_readEntry {bound : Nat} {block : Reader Properties}
    (hb : ReadsBlock spots bound block) :
    Steady spots bound (fun _ => True) (readEntry block).fill := by
  intro p entries h hl hk hn _
  rw [fill_readEntry]
  refine (runs_takeKey h hk hn).bind ?_
  intro key q hf hq
  have ht := hq.taken
  refine .isSign hf.sound ?_
  split
  · refine (hb q hf.sound (by omega)).bind ?_
    intro inner r hg hr
    exact .pure hg.sound ⟨trivial, (hq.trans hr).weaken (by omega)⟩
  · refine (runs_takeValues hf.sound key.line).bind ?_
    intro values r hg hr
    exact .pure hg.sound ⟨trivial, hq.trans hr⟩

/-- Keys and values pass whole blocks. -/
theorem readsBlock_readKeyValuesWithin (depth : Nat) :
    ReadsBlock spots depth (readKeyValuesWithin depth) := by
  induction depth with
  | zero =>
    intro p h hl
    have := h.rest_pos
    omega
  | succ depth ih =>
    intro p h hl
    unfold readKeyValuesWithin
    refine (runs_expectOpening h).bind ?_
    intro _ q hf ho
    obtain ⟨token, _, hr⟩ := ho.rest
    rw [hr, List.length_cons] at hl
    refine (runs_readBlock (steady_readEntry ih) hf.sound (by omega) trivial).mono ?_
    rintro _ r _ ⟨_, hg⟩
    exact ho.trans hg

/-- Keys and values pass whole blocks. -/
theorem runs_readKeyValues (h : p.Sound spots) :
    Runs spots p readKeyValues fun _ q => Goes 0 1 p q := by
  unfold readKeyValues
  exact .remaining (readsBlock_readKeyValuesWithin _ p h (Nat.le_refl _))

/-- A property word is plain. -/
theorem isPlain_of_ofKind? {kind : Kind} {word : PropertyWord}
    (h : PropertyWord.ofKind? kind = some word) : isPlain kind = true := by
  unfold PropertyWord.ofKind? at h
  split at h <;> first | rfl | cases h

/-- A property statement takes its word at least; without one nothing is read. -/
theorem runs_readProperty (h : p.Sound spots) (accepts : PropertyWord → Bool) :
    Runs spots p (readProperty accepts) fun change q =>
      (change = none ∧ q = p) ∨ ((∃ edit, change = some edit) ∧ Goes 0 1 p q) := by
  unfold readProperty
  refine .current h ?_
  split
  · exact .pure h (.inl ⟨rfl, rfl⟩)
  · rename_i word hw
    split
    · refine (runs_advance_plain h (isPlain_of_ofKind? hw)).bind ?_
      rintro _ q hf ⟨_, _, hq⟩
      -- The texts that words have as value are read in one way.
      have hv : ∀ make : String → PropertyEdit,
          Runs spots q (do
            let value ← expectValue p.next.line (.valueFor p.next.lexeme)
            return some (make value)) fun change r =>
              (change = none ∧ r = p) ∨ ((∃ edit, change = some edit) ∧ Goes 0 1 p r) := by
        intro make
        refine (runs_expectValue hf.sound _ _).bind ?_
        intro value r hg hr
        exact .pure hg.sound (.inr ⟨⟨_, rfl⟩, hq.trans hr⟩)
      have hb : ∀ make : Properties → PropertyEdit,
          Runs spots q (do
            let entries ← readKeyValues
            return some (make entries)) fun change r =>
              (change = none ∧ r = p) ∨ ((∃ edit, change = some edit) ∧ Goes 0 1 p r) := by
        intro make
        refine (runs_readKeyValues hf.sound).bind ?_
        intro entries r hg hr
        exact .pure hg.sound (.inr ⟨⟨_, rfl⟩, (hq.trans hr).weaken (by omega)⟩)
      cases word with
      | description => exact hv .description
      | technology => exact hv .technology
      | url => exact hv .url
      | location => exact hv .location
      | instances => exact hv .instances
      | tags =>
        refine (runs_takeValues hf.sound _).bind ?_
        intro values r hg hr
        split
        · exact .current hg.sound (.failExpected hg.sound)
        · exact .pure hg.sound (.inr ⟨⟨_, rfl⟩, hq.trans hr⟩)
      | properties => exact hb .properties
      | perspectives => exact hb .perspectives
    · exact .pure h (.inl ⟨rfl, rfl⟩)

end Blueprint.Grammar
