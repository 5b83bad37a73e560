import Blueprint.Proofs.Qualified.Meaning
import Blueprint.Proofs.Registry.Failure

/-!
# References that lead to references

A reference is followed already, or it leads to another one, as an alias or by its first part, or it
is settled where it stands. What holds of all references is shown for these four ways. The
references that led to a reference matter only if it comes back to one of them; so a reference that
they lead back to resolves to the same element as it does by itself.
-/

namespace Blueprint

namespace Registry

variable {registry : Registry} {chain others : List String} {reference target : String}
  {position place : Option Position} {byName : Bool}

/-! ## The four ways of a reference -/

/-- A reference is settled where it stands: it is not being followed, and it leads to no other. -/
structure Settles (registry : Registry) (chain : List String) (reference : String) : Prop where
  /-- It is not being followed yet. -/
  new : reference ∉ chain
  /-- It is an alias for no reference that is followed in turn. -/
  noAlias : ∀ target, ¬registry.AliasStep chain reference target
  /-- It is no path whose first part is followed. -/
  noPath : ¬registry.PathStep chain reference

/-- What a reference stands for where it is settled. -/
def outright (registry : Registry) (reference : String) (byName : Bool) : Option Entry :=
  if reference = "this" ∨ reference = "parent" then registry.relativeMeaning reference
  else (registry.get? reference).or
    (((registry.aliases.get? reference).bind registry.get?).or
      (if byName then registry.resolveName reference else none))

/-- What a reference resolves to where it is settled. -/
def settlement (registry : Registry) (chain : List String) (reference : String)
    (position : Option Position) (byName : Bool) : Resolution :=
  if reference = "this" ∨ reference = "parent" then registry.resolveRelative reference position
  else
    match registry.outright reference byName with
    | some entry => .found entry
    | none => .missing (.unresolved (chain ++ [reference])) position

/-- An identifier is settled. -/
theorem settles_of_get? (hn : reference ∉ chain) {entry : Entry}
    (hg : registry.get? reference = some entry) : registry.Settles chain reference := by
  refine ⟨hn, fun target step => ?_, fun step => ?_⟩
  · cases hg.symm.trans step.noElement
  · cases hg.symm.trans step.noElement

/-- An alias for an identifier is settled. -/
theorem settles_of_target (hn : reference ∉ chain)
    (ha : registry.aliases.get? reference = some target) {entry : Entry}
    (hg : registry.get? target = some entry) : registry.Settles chain reference := by
  refine ⟨hn, fun other step => ?_, fun step => ?_⟩
  · obtain rfl : target = other := Option.some.inj (ha.symm.trans step.known)
    cases hg.symm.trans step.dangling
  · cases ha.symm.trans step.noAlias

/-- What holds of the references that are followed already, of those that are settled, and of those
that lead to others of which it holds, holds of all references. -/
@[elab_as_elim]
theorem following_induction (registry : Registry) {motive : List String → String → Prop}
    (back : ∀ chain reference, reference ∈ chain → motive chain reference)
    (byAlias : ∀ chain reference target, registry.AliasStep chain reference target →
      motive (chain ++ [reference]) target → motive chain reference)
    (byPath : ∀ chain reference, registry.PathStep chain reference →
      motive (chain ++ [reference]) (firstPart reference) → motive chain reference)
    (settled : ∀ chain reference, registry.Settles chain reference → motive chain reference)
    (chain : List String) (reference : String) : motive chain reference := by
  induction chain, reference, (none : Option Position), true using
    resolveAfter.induct registry with
  | case1 chain reference _ _ hm => exact back chain reference hm
  | case2 chain reference _ _ hn hr =>
    exact settled chain reference
      ⟨hn, fun _ step => step.notRelative hr, fun step => step.notRelative hr⟩
  | case3 chain reference _ _ hn _ entry hg =>
    exact settled chain reference (settles_of_get? hn hg)
  | case4 chain reference _ _ hn _ _ target ha entry hg =>
    exact settled chain reference (settles_of_target hn ha hg)
  | case5 chain reference _ _ hn hr hg target ha hd ih =>
    exact byAlias chain reference target ⟨hn, hr, hg, ha, hd⟩ ih
  | case6 chain reference _ _ hn hr hg ha hp ih =>
    exact byPath chain reference ⟨hn, hr, hg, ha, hp⟩ ih
  | case7 chain reference _ _ hn _ _ ha hp entry =>
    refine settled chain reference ⟨hn, fun _ step => ?_, fun step => hp step.path⟩
    cases ha.symm.trans step.known
  | case8 chain reference _ _ hn _ _ ha hp =>
    refine settled chain reference ⟨hn, fun _ step => ?_, fun step => hp step.path⟩
    cases ha.symm.trans step.known

/-- What is being followed already is refused. -/
theorem resolveAfter_of_mem (h : reference ∈ chain) :
    registry.resolveAfter chain reference position byName =
      .circular (chain ++ [reference]) position := by
  rw [resolveAfter, dif_pos h]

/-- An alias resolves to what it stands for. -/
theorem AliasStep.resolveAfter_eq (step : registry.AliasStep chain reference target) :
    registry.resolveAfter chain reference position byName =
      registry.resolveAfter (chain ++ [reference]) target position byName := by
  rw [resolveAfter, dif_neg step.new, if_neg step.notRelative, step.noElement]
  dsimp only
  split
  · rename_i other ha
    obtain rfl : target = other := Option.some.inj (step.known.symm.trans ha)
    rw [step.dangling]
  · rename_i ha
    cases step.known.symm.trans ha

/-- Where a path leads from what its first part resolves to. -/
def continuePath (registry : Registry) (path : String) (position : Option Position) :
    Option Entry → Resolution
  | some start => registry.followPath path position start (pathParts path).tail
  | none => .missing (.pathPart (firstPart path) path) position

/-- A path leads to what its parts stand for, or nowhere if its first part stands for nothing. -/
theorem continuePath_value (path : String) (start? : Option Entry) :
    (registry.continuePath path position start?).value =
      start?.bind fun start => registry.follow start (pathParts path).tail := by
  cases start? with
  | none => rfl
  | some start => exact (answers_followPath path start _).value

/-- A path resolves to where its parts lead. Its first part is always resolved with name search. -/
theorem PathStep.resolveAfter_eq (step : registry.PathStep chain reference) :
    registry.resolveAfter chain reference position byName =
      registry.resolveAfter (chain ++ [reference]) (firstPart reference) none true >>=
        registry.continuePath reference position := by
  rw [resolveAfter, dif_neg step.new, if_neg step.notRelative, step.noElement]
  dsimp only
  split
  · rename_i other ha
    cases ha.symm.trans step.noAlias
  · rw [dif_pos step.path]
    rfl

/-- A reference that is settled resolves to what it stands for. If it stands for nothing, all
references that led to it are told. -/
theorem Settles.resolveAfter_eq (h : registry.Settles chain reference) :
    registry.resolveAfter chain reference position byName =
      registry.settlement chain reference position byName := by
  rw [resolveAfter, dif_neg h.new]
  unfold settlement
  by_cases hr : reference = "this" ∨ reference = "parent"
  · rw [if_pos hr, if_pos hr]
  rw [if_neg hr, if_neg hr]
  unfold outright
  rw [if_neg hr]
  cases hg : registry.get? reference with
  | some entry => rfl
  | none =>
    dsimp only
    split
    · rename_i target ha
      cases hd : registry.get? target with
      | none => exact absurd ⟨h.new, hr, hg, ha, hd⟩ (h.noAlias target)
      | some entry => rw [ha, Option.bind_some, hd, Option.none_or, Option.some_or]
    · rename_i ha
      have hp : ¬isPath reference = true := fun hp => h.noPath ⟨h.new, hr, hg, ha, hp⟩
      have hname : ((registry.aliases.get? reference).bind registry.get?) = none := by
        rw [ha, Option.bind_none]
      refine (dif_neg hp).trans ?_
      rw [hname]
      cases hb : if byName then registry.resolveName reference else none with
      | none => exact rfl
      | some entry => exact rfl

/-- A reference that is settled resolves to what it stands for, whatever led to it. -/
theorem Settles.value (h : registry.Settles chain reference) :
    (registry.resolveAfter chain reference position byName).value =
      registry.outright reference byName := by
  rw [h.resolveAfter_eq]
  unfold settlement
  by_cases hr : reference = "this" ∨ reference = "parent"
  · rw [if_pos hr, outright, if_pos hr]
    exact (answers_resolveRelative reference).value
  · rw [if_neg hr]
    exact (Resolution.answers_option _ _ position).value

/-- An element of another class than is wanted is not resolved to. -/
theorem value_resolve (wanted : ElementClass) :
    (registry.resolve reference position byName wanted).value =
      (registry.resolveAfter [] reference position byName).value.filter fun entry =>
        entry.kind.isA wanted := by
  unfold resolve
  rw [Reported.bind_value]
  cases (registry.resolveAfter [] reference position byName).value with
  | none => rfl
  | some entry =>
    rw [Option.filter_some]
    dsimp only
    split <;> rfl

/-- Every element is of the widest class. -/
theorem value_resolve_element : (registry.resolve reference position byName).value =
    (registry.resolveAfter [] reference position byName).value := by
  rw [value_resolve]
  cases (registry.resolveAfter [] reference position byName).value with
  | none => rfl
  | some entry => rw [Option.filter_some, if_pos entry.kind.isA_element]

/-! ## References that lead back -/

/-- A step to what an alias stands for is one wherever the alias is not being followed. -/
theorem AliasStep.within (step : registry.AliasStep chain reference target)
    (hn : reference ∉ others) : registry.AliasStep others reference target :=
  ⟨hn, step.notRelative, step.noElement, step.known, step.dangling⟩

/-- A step to the first part of a path is one wherever the path is not being followed. -/
theorem PathStep.within (step : registry.PathStep chain reference) (hn : reference ∉ others) :
    registry.PathStep others reference :=
  ⟨hn, step.notRelative, step.noElement, step.noAlias, step.path⟩

/-- A settled reference is settled wherever it is not being followed. -/
theorem Settles.within (h : registry.Settles chain reference) (hn : reference ∉ others) :
    registry.Settles others reference :=
  ⟨hn, fun target step => h.noAlias target (step.within h.new), fun step =>
    h.noPath (step.within h.new)⟩

/-- Step by step, a reference leads to one of some others. -/
inductive LeadsTo (registry : Registry) (others : List String) : String → Prop
  /-- It is one of them. -/
  | here {reference : String} (h : reference ∈ others) : LeadsTo registry others reference
  /-- What it is an alias for leads to one of them. -/
  | byAlias {reference target : String} (step : registry.AliasStep [] reference target)
    (h : LeadsTo registry others target) : LeadsTo registry others reference
  /-- Its first part leads to one of them. -/
  | byPath {reference : String} (step : registry.PathStep [] reference)
    (h : LeadsTo registry others (firstPart reference)) : LeadsTo registry others reference

/-- What leads to one of some references leads to one of more. -/
theorem LeadsTo.mono (h : registry.LeadsTo others reference) (hs : others ⊆ chain) :
    registry.LeadsTo chain reference := by
  induction h with
  | here h => exact .here (hs h)
  | byAlias step _ ih => exact .byAlias step ih
  | byPath step _ ih => exact .byPath step ih

/-- What leads to a reference that is being followed comes back. -/
theorem LeadsTo.comesBack (h : registry.LeadsTo others reference) (hs : others ⊆ chain) :
    registry.ComesBack chain reference := by
  induction h generalizing chain with
  | here h => exact .here (hs h)
  | @byAlias reference _ step _ ih =>
    by_cases hm : reference ∈ chain
    · exact .here hm
    · exact .byAlias (step.within hm) (ih fun _ ho => List.mem_append_left _ (hs ho))
  | @byPath reference step _ ih =>
    by_cases hm : reference ∈ chain
    · exact .here hm
    · exact .byPath (step.within hm) (ih fun _ ho => List.mem_append_left _ (hs ho))

/-- Where references lead to others, what comes back to one of them comes back to one of the
others. -/
theorem ComesBack.of_leadsTo (h : registry.ComesBack chain reference)
    (hl : ∀ earlier ∈ chain, registry.LeadsTo others earlier) :
    registry.ComesBack others reference := by
  induction h generalizing others with
  | here h => exact (hl _ h).comesBack fun _ ho => ho
  | @byAlias chain reference target step _ ih =>
    by_cases hm : reference ∈ others
    · exact .here hm
    · refine .byAlias (step.within hm) (ih fun earlier he => ?_)
      rcases List.mem_append.mp he with he | he
      · exact (hl earlier he).mono (List.subset_append_left _ _)
      · exact .here (List.mem_append_right _ he)
  | @byPath chain reference step _ ih =>
    by_cases hm : reference ∈ others
    · exact .here hm
    · refine .byPath (step.within hm) (ih fun earlier he => ?_)
      rcases List.mem_append.mp he with he | he
      · exact (hl earlier he).mono (List.subset_append_left _ _)
      · exact .here (List.mem_append_right _ he)

/-- A reference that those before it lead back to comes back to one of them exactly if it comes back
by itself. -/
theorem comesBack_iff_alone (hn : reference ∉ chain)
    (hl : ∀ earlier ∈ chain, registry.LeadsTo [reference] earlier) :
    registry.ComesBack chain reference ↔ registry.ComesBack [] reference := by
  refine ⟨fun h => ?_, fun h => h.of_leadsTo fun _ he => absurd he List.not_mem_nil⟩
  have hall : ∀ earlier ∈ chain ++ [reference], registry.LeadsTo ([] ++ [reference]) earlier := by
    intro earlier he
    rcases List.mem_append.mp he with he | he
    · exact hl earlier he
    · exact .here he
  cases h with
  | here h => exact absurd h hn
  | byAlias step h => exact .byAlias (step.within List.not_mem_nil) (h.of_leadsTo hall)
  | byPath step h => exact .byPath (step.within List.not_mem_nil) (h.of_leadsTo hall)

/-! ## What the references before a reference change -/

/-- A reference that comes back resolves to nothing. -/
theorem value_of_comesBack (h : registry.ComesBack chain reference) :
    (registry.resolveAfter chain reference position byName).value = none := by
  have ha := registry.accounts_resolveAfter chain reference position byName
  unfold Accounts at ha
  cases hv : (registry.resolveAfter chain reference position byName).value with
  | none => rfl
  | some entry =>
    rw [hv] at ha
    exact absurd h ha.2

/-- A reference that does not come back resolves to the same element whatever led to it, and
wherever it stands. -/
theorem value_of_not_comesBack (h : ¬registry.ComesBack chain reference)
    (ho : ¬registry.ComesBack others reference) :
    (registry.resolveAfter chain reference position byName).value =
      (registry.resolveAfter others reference place byName).value := by
  induction chain, reference using following_induction registry
    generalizing others position place byName with
  | back chain reference hm => exact absurd (.here hm) h
  | byAlias chain reference target step ih =>
    have hother : registry.AliasStep others reference target :=
      step.within fun hm => ho (.here hm)
    rw [step.resolveAfter_eq, hother.resolveAfter_eq]
    exact ih (step.comesBack_iff.not.mp h) (hother.comesBack_iff.not.mp ho)
  | byPath chain reference step ih =>
    have hother : registry.PathStep others reference := step.within fun hm => ho (.here hm)
    rw [step.resolveAfter_eq, hother.resolveAfter_eq, Reported.bind_value, Reported.bind_value,
      continuePath_value, continuePath_value,
      ih (step.comesBack_iff.not.mp h) (hother.comesBack_iff.not.mp ho)]
  | settled chain reference hs =>
    have hother : registry.Settles others reference := hs.within fun hm => ho (.here hm)
    rw [hs.value, hother.value]

/-- A reference that those before it lead back to resolves to the same element as by itself. -/
theorem value_alone (hn : reference ∉ chain)
    (hl : ∀ earlier ∈ chain, registry.LeadsTo [reference] earlier) :
    (registry.resolveAfter chain reference position byName).value =
      (registry.resolveAfter [] reference place byName).value := by
  have hiff := comesBack_iff_alone hn hl
  by_cases h : registry.ComesBack [] reference
  · rw [value_of_comesBack h, value_of_comesBack (hiff.mpr h)]
  · exact value_of_not_comesBack (hiff.not.mpr h) h

/-- A reference resolves to the same element wherever it stands. -/
theorem value_resolve_place : (registry.resolve reference position byName).value =
    (registry.resolve reference place byName).value := by
  rw [value_resolve_element, value_resolve_element]
  exact value_alone List.not_mem_nil fun _ he => absurd he List.not_mem_nil

end Registry

end Blueprint
