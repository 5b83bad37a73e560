import Mathlib.Data.List.Dedup
import Blueprint.Proofs.Registry.Chain

/-!
# Aliases of aliases

What an alias stands for may be an alias in turn. Following aliases either comes back to a reference
that was followed before, and then just this is reported, with the references up to the first one
that comes back; or it ends, and the alias resolves to what the last reference resolves to. No
reference is followed twice, so the depth of resolving is bounded by what aliases stand for and by
the first parts of paths.
-/

namespace Blueprint

namespace Registry

variable {registry : Registry} {chain trail other : List String}
  {reference target last final : String} {position place : Option Position} {byName : Bool}

/-! ## What aliases lead to -/

/-- What a reference is an alias for. Relative references and identifiers are no aliases. -/
def aliasOf? (registry : Registry) (reference : String) : Option String :=
  if (reference = "this" ∨ reference = "parent") ∨ (registry.get? reference).isSome = true then none
  else registry.aliases.get? reference

/-- A reference leads to a last one by its alias and those that follow, through some references in
their order. -/
inductive AliasTrail (registry : Registry) : String → List String → String → Prop
  /-- A reference leads to itself. -/
  | here (reference : String) : AliasTrail registry reference [] reference
  /-- It leads where the reference leads that it is an alias for. -/
  | step {reference target last : String} {trail : List String}
    (h : registry.aliasOf? reference = some target)
    (rest : AliasTrail registry target trail last) :
    AliasTrail registry reference (reference :: trail) last

/-- An alias is no relative reference and no identifier, and stands for what the table says. -/
theorem aliasOf?_eq_some_iff : registry.aliasOf? reference = some target ↔
    ¬(reference = "this" ∨ reference = "parent") ∧ registry.get? reference = none ∧
      registry.aliases.get? reference = some target := by
  unfold aliasOf?
  split
  · rename_i h
    constructor
    · intro ha
      cases ha
    · intro ha
      obtain ⟨hr, hg, -⟩ := ha
      rw [hg] at h
      exact absurd (h.resolve_left hr) Bool.false_ne_true
  · rename_i h
    rw [not_or, Bool.not_eq_true, Option.isSome_eq_false_iff, Option.isNone_iff_eq_none] at h
    exact ⟨fun ha => ⟨h.1, h.2, ha⟩, fun ha => ha.2.2⟩

/-- An alias for a reference that is no identifier is followed. -/
theorem aliasStep_of_aliasOf? (h : registry.aliasOf? reference = some target)
    (hd : registry.get? target = none) (hn : reference ∉ chain) :
    registry.AliasStep chain reference target := by
  obtain ⟨hr, hg, ha⟩ := aliasOf?_eq_some_iff.mp h
  exact ⟨hn, hr, hg, ha, hd⟩

/-- What is followed is an alias. -/
theorem AliasStep.aliasOf?_eq (step : registry.AliasStep chain reference target) :
    registry.aliasOf? reference = some target :=
  aliasOf?_eq_some_iff.mpr ⟨step.notRelative, step.noElement, step.known⟩

namespace AliasTrail

/-- All references of a trail but the last one are aliases. -/
theorem exists_aliasOf? (h : registry.AliasTrail reference trail last) {earlier : String}
    (he : earlier ∈ trail) : ∃ target, registry.aliasOf? earlier = some target := by
  induction h with
  | here => exact absurd he List.not_mem_nil
  | step ha _ ih =>
    rcases List.mem_cons.mp he with rfl | he
    · exact ⟨_, ha⟩
    · exact ih he

/-- Where the last reference of a trail is no identifier, none of the others is one. -/
theorem get?_eq_none (h : registry.AliasTrail reference trail last)
    (hl : registry.get? last = none) : registry.get? reference = none := by
  cases h with
  | here => exact hl
  | step ha _ => exact (aliasOf?_eq_some_iff.mp ha).2.1

/-- A trail that ends goes on from each of its references. -/
theorem behind (h : registry.AliasTrail reference trail last) {before after : List String}
    {earlier : String} (he : trail = before ++ earlier :: after) :
    registry.AliasTrail earlier (earlier :: after) last := by
  induction h generalizing before with
  | here => cases before <;> cases he
  | step ha rest ih =>
    cases before with
    | nil =>
      obtain ⟨rfl, rfl⟩ := List.cons.inj he
      exact .step ha rest
    | cons first before => exact ih (List.cons.inj he).2

/-- Aliases lead from a reference to one end only. -/
theorem unique (h : registry.AliasTrail reference trail last)
    (hl : registry.aliasOf? last = none) (ho : registry.AliasTrail reference other final)
    (hf : registry.aliasOf? final = none) : trail = other := by
  induction h generalizing other with
  | here =>
    cases ho with
    | here => rfl
    | step ha => cases hl.symm.trans ha
  | step ha _ ih =>
    cases ho with
    | here => cases hf.symm.trans ha
    | step hb rest =>
      obtain rfl := Option.some.inj (ha.symm.trans hb)
      rw [ih hl rest]

/-- A trail that ends meets no reference twice. -/
theorem nodup (h : registry.AliasTrail reference trail last)
    (hl : registry.aliasOf? last = none) : trail.Nodup := by
  induction h with
  | here => exact List.nodup_nil
  | @step reference target last trail ha rest ih =>
    refine List.nodup_cons.mpr ⟨fun hm => ?_, ih hl⟩
    -- From a second place of the reference the trail would end earlier than from the first one.
    obtain ⟨before, after, he⟩ := List.append_of_mem hm
    have hagain := (AliasTrail.step ha rest).unique hl (rest.behind he) hl
    have hlength := congrArg List.length (List.cons.inj hagain).2
    rw [he, List.length_append, List.length_cons] at hlength
    omega

/-- A trail that ends does not meet its last reference before. -/
theorem last_notMem (h : registry.AliasTrail reference trail last)
    (hl : registry.aliasOf? last = none) : last ∉ trail := by
  intro hm
  obtain ⟨target, ha⟩ := h.exists_aliasOf? hm
  cases hl.symm.trans ha

/-- The references of a trail lead to its last one, unless this is an identifier. -/
theorem leadsTo (h : registry.AliasTrail reference trail last)
    (hl : registry.get? last = none) : registry.LeadsTo [last] reference := by
  induction h with
  | here => exact .here (List.mem_singleton_self _)
  | step ha rest ih =>
    exact .byAlias (aliasStep_of_aliasOf? ha (rest.get?_eq_none hl) List.not_mem_nil) (ih hl)

/-- The references of a trail lead to its last one, unless this is an identifier. -/
theorem leadsTo_of_mem (h : registry.AliasTrail reference trail last)
    (hl : registry.get? last = none) {earlier : String} (he : earlier ∈ trail) :
    registry.LeadsTo [last] earlier := by
  obtain ⟨before, after, ht⟩ := List.append_of_mem he
  exact (h.behind ht).leadsTo hl

/-- A reference resolves to what the last reference of a trail resolves to behind the others, unless
this is an identifier. -/
theorem resolveAfter_eq (h : registry.AliasTrail reference trail last)
    (hn : (chain ++ trail).Nodup) (hl : registry.get? last = none) :
    registry.resolveAfter chain reference position byName =
      registry.resolveAfter (chain ++ trail) last position byName := by
  induction h generalizing chain with
  | here => rw [List.append_nil]
  | @step reference target last trail ha rest ih =>
    have hnew : reference ∉ chain := fun hm =>
      (List.nodup_append.mp hn).2.2 reference hm reference List.mem_cons_self rfl
    have hstep := aliasStep_of_aliasOf? ha (rest.get?_eq_none hl) hnew
    rw [List.append_cons] at hn ⊢
    rw [hstep.resolveAfter_eq, ih hn hl]

/-- A reference resolves to the element whose identifier the last reference of a trail is. -/
theorem value_of_get? (h : registry.AliasTrail reference trail last)
    (hn : (chain ++ trail).Nodup) (hm : last ∉ chain) (hr : ¬(last = "this" ∨ last = "parent"))
    {entry : Entry} (hg : registry.get? last = some entry) :
    (registry.resolveAfter chain reference position byName).value = some entry := by
  induction h generalizing chain with
  | here reference =>
    have hs : registry.Settles chain reference := settles_of_get? hm hg
    rw [hs.value, outright, if_neg hr, hg, Option.some_or]
  | @step reference target last trail ha rest ih =>
    obtain ⟨hrelative, hnone, hknown⟩ := aliasOf?_eq_some_iff.mp ha
    have hnew : reference ∉ chain := fun hc =>
      (List.nodup_append.mp hn).2.2 reference hc reference List.mem_cons_self rfl
    cases hd : registry.get? target with
    | none =>
      have hstep := aliasStep_of_aliasOf? ha hd hnew
      have hne : last ∉ chain ++ [reference] := by
        rw [List.mem_append, List.mem_singleton]
        rintro (hc | rfl)
        · exact hm hc
        · cases hg.symm.trans hnone
      rw [List.append_cons] at hn
      rw [hstep.resolveAfter_eq]
      exact ih hn hne hr hg
    | some direct =>
      -- The target is an identifier, so the trail ends there.
      have hs : registry.Settles chain reference := settles_of_target hnew hknown hd
      have he : registry.get? last = some direct := by
        cases rest with
        | here => exact hd
        | step hb => cases hd.symm.trans (aliasOf?_eq_some_iff.mp hb).2.1
      rw [hs.value, outright, if_neg hrelative, hnone, hknown, Option.bind_some, hd,
        Option.none_or, Option.some_or, ← he, hg]

/-- A reference resolves to what the last reference of a trail that ends resolves to by itself. -/
theorem value_eq (h : registry.AliasTrail reference trail last)
    (hl : registry.aliasOf? last = none) (hthis : registry.get? "this" = none)
    (hparent : registry.get? "parent" = none) :
    (registry.resolveAfter [] reference position byName).value =
      (registry.resolveAfter [] last place byName).value := by
  have hn : ([] ++ trail).Nodup := h.nodup hl
  cases hg : registry.get? last with
  | none =>
    rw [h.resolveAfter_eq hn hg]
    exact value_alone (h.last_notMem hl) fun _ he => h.leadsTo_of_mem hg he
  | some entry =>
    have hr : ¬(last = "this" ∨ last = "parent") := by
      rintro (rfl | rfl)
      · cases hg.symm.trans hthis
      · cases hg.symm.trans hparent
    rw [h.value_of_get? hn List.not_mem_nil hr hg,
      (here last).value_of_get? List.nodup_nil List.not_mem_nil hr hg]

end AliasTrail

/-- Following the aliases of a reference comes back to a reference or ends. -/
theorem exists_aliasTrail (registry : Registry) (chain : List String) (reference : String)
    (hn : chain.Nodup) : ∃ trail last, registry.AliasTrail reference trail last ∧
      (chain ++ trail).Nodup ∧ (last ∈ chain ++ trail ∨ registry.aliasOf? last = none) := by
  have hjoin : ∀ {chain : List String} {reference : String}, chain.Nodup → reference ∉ chain →
      (chain ++ [reference]).Nodup := fun hn hm => List.concat_eq_append ▸ hn.concat hm
  induction chain, reference using following_induction registry with
  | back chain reference hm =>
    refine ⟨[], reference, .here reference, ?_, .inl ?_⟩ <;> rwa [List.append_nil]
  | byAlias chain reference target step ih =>
    obtain ⟨trail, last, htrail, hnodup, hend⟩ := ih (hjoin hn step.new)
    rw [← List.append_cons] at hnodup hend
    exact ⟨reference :: trail, last, .step step.aliasOf?_eq htrail, hnodup, hend⟩
  | byPath chain reference step =>
    refine ⟨[], reference, .here reference, by rwa [List.append_nil], .inr ?_⟩
    unfold aliasOf?
    rw [step.noAlias, ite_self]
  | settled chain reference hs =>
    cases ha : registry.aliasOf? reference with
    | none => exact ⟨[], reference, .here reference, by rwa [List.append_nil], .inr ha⟩
    | some target =>
      refine ⟨[reference], target, .step ha (.here target), hjoin hn hs.new, .inr ?_⟩
      cases hd : registry.get? target with
      | none => exact absurd (aliasStep_of_aliasOf? ha hd hs.new) (hs.noAlias target)
      | some entry =>
        unfold aliasOf?
        rw [hd, if_pos (.inr rfl)]

/-! ## How deep resolving goes -/

/-- Resolves a reference that a chain of references leads to, or gives up where more references than
a bound would be resolved one inside the other. -/
def resolveWithin (registry : Registry) :
    Nat → List String → String → Option Position → Bool → Option Resolution
  | 0, _, _, _, _ => none
  | depth + 1, chain, reference, position, byName =>
    if reference ∈ chain then some (.circular (chain ++ [reference]) position)
    else if reference = "this" ∨ reference = "parent" then
      some (registry.resolveRelative reference position)
    else
      match registry.get? reference with
      | some entry => some (.found entry)
      | none =>
        match registry.aliases.get? reference with
        | some target =>
          match registry.get? target with
          | some entry => some (.found entry)
          | none => registry.resolveWithin depth (chain ++ [reference]) target position byName
        | none =>
          if isPath reference = true then
            (registry.resolveWithin depth (chain ++ [reference]) (firstPart reference) none
              true).map (· >>= registry.continuePath reference position)
          else
            match if byName then registry.resolveName reference else none with
            | some entry => some (.found entry)
            | none => some (.missing (.unresolved (chain ++ [reference])) position)

/-- The references that resolving a reference can lead to: what aliases stand for, and the first
parts of paths among these and the reference. -/
def landings (registry : Registry) (reference : String) : List String :=
  (registry.aliases.values ++
    ((reference :: registry.aliases.values).filter isPath).map firstPart).dedup

/-- An alias is resolved one level further in. -/
theorem AliasStep.resolveWithin_eq (step : registry.AliasStep chain reference target)
    (depth : Nat) : registry.resolveWithin (depth + 1) chain reference position byName =
      registry.resolveWithin depth (chain ++ [reference]) target position byName := by
  rw [resolveWithin, if_neg step.new, if_neg step.notRelative, step.noElement, step.known]
  dsimp only
  rw [step.dangling]

/-- The first part of a path is resolved one level further in. -/
theorem PathStep.resolveWithin_eq (step : registry.PathStep chain reference) (depth : Nat) :
    registry.resolveWithin (depth + 1) chain reference position byName =
      (registry.resolveWithin depth (chain ++ [reference]) (firstPart reference) none true).map
        (· >>= registry.continuePath reference position) := by
  rw [resolveWithin, if_neg step.new, if_neg step.notRelative, step.noElement, step.noAlias]
  dsimp only
  rw [if_pos step.path]

/-- A reference that is settled is resolved at once. -/
theorem Settles.resolveWithin_eq (h : registry.Settles chain reference) (depth : Nat) :
    registry.resolveWithin (depth + 1) chain reference position byName =
      some (registry.resolveAfter chain reference position byName) := by
  rw [h.resolveAfter_eq, resolveWithin, if_neg h.new]
  unfold settlement outright
  by_cases hr : reference = "this" ∨ reference = "parent"
  · rw [if_pos hr, if_pos hr]
  rw [if_neg hr, if_neg hr, if_neg hr]
  cases hg : registry.get? reference with
  | some entry => rfl
  | none =>
    dsimp only
    cases ha : registry.aliases.get? reference with
    | some target =>
      cases hd : registry.get? target with
      | none => exact absurd ⟨h.new, hr, hg, ha, hd⟩ (h.noAlias target)
      | some entry =>
        dsimp only
        rw [Option.bind_some, hd, Option.none_or, Option.some_or]
    | none =>
      have hp : ¬isPath reference = true := fun hp => h.noPath ⟨h.new, hr, hg, ha, hp⟩
      dsimp only
      rw [if_neg hp, Option.bind_none, Option.none_or, Option.none_or]
      cases (if byName then registry.resolveName reference else none) <;> rfl

/-- Where one more of some references is followed, fewer of them are left. -/
theorem length_filter_notMem_lt {stops : List String} (hm : reference ∈ stops)
    (hn : reference ∉ chain) :
    (stops.filter (· ∉ chain ++ [reference])).length < (stops.filter (· ∉ chain)).length := by
  have hsplit : stops.filter (· ∉ chain ++ [reference]) =
      (stops.filter (· ∉ chain)).filter (· ≠ reference) := by
    rw [List.filter_filter]
    refine List.filter_congr fun stop _ => ?_
    rw [← Bool.decide_and, decide_eq_decide, List.mem_append, List.mem_singleton, not_or,
      and_comm]
  rw [hsplit, List.length_filter_lt_length_iff_exists]
  exact ⟨reference, List.mem_filter.mpr ⟨hm, decide_eq_true hn⟩, by simp⟩

/-- Where the bound exceeds the count of the references that can still be led to, resolving does not
give up. -/
theorem resolveWithin_eq {start : String} {depth : Nat}
    (hm : reference ∈ start :: registry.landings start)
    (hp : isPath reference = true → reference ∈ start :: registry.aliases.values)
    (hd : ((start :: registry.landings start).filter (· ∉ chain)).length < depth) :
    registry.resolveWithin depth chain reference position byName =
      some (registry.resolveAfter chain reference position byName) := by
  induction chain, reference using following_induction registry
    generalizing depth position byName with
  | back chain reference hc =>
    obtain ⟨depth, rfl⟩ := Nat.exists_eq_succ_of_ne_zero (Nat.ne_zero_of_lt hd)
    rw [resolveWithin, if_pos hc, resolveAfter_of_mem hc]
  | byAlias chain reference target step ih =>
    obtain ⟨depth, rfl⟩ := Nat.exists_eq_succ_of_ne_zero (Nat.ne_zero_of_lt hd)
    have hvalue : target ∈ registry.aliases.values := OrderedMap.mem_values_of_get? step.known
    rw [step.resolveWithin_eq, step.resolveAfter_eq]
    refine ih ?_ (fun _ => List.mem_cons_of_mem _ hvalue) ?_
    · exact List.mem_cons_of_mem _ (List.mem_dedup.mpr (List.mem_append_left _ hvalue))
    · have := length_filter_notMem_lt hm step.new
      omega
  | byPath chain reference step ih =>
    obtain ⟨depth, rfl⟩ := Nat.exists_eq_succ_of_ne_zero (Nat.ne_zero_of_lt hd)
    have hfirst : firstPart reference ∈ registry.landings start :=
      List.mem_dedup.mpr (List.mem_append_right _ (List.mem_map_of_mem
        (List.mem_filter.mpr ⟨hp step.path, step.path⟩)))
    rw [step.resolveWithin_eq, step.resolveAfter_eq, ih (List.mem_cons_of_mem _ hfirst)]
    · rfl
    · rw [isPath_firstPart]
      exact nofun
    · have := length_filter_notMem_lt hm step.new
      omega
  | settled chain reference hs =>
    obtain ⟨depth, rfl⟩ := Nat.exists_eq_succ_of_ne_zero (Nat.ne_zero_of_lt hd)
    exact hs.resolveWithin_eq depth

/-! ## Whatever aliases there are -/

/-- Just one error is reported, in some words and with some position. -/
def ReportsOnly (diagnostics : List Diagnostic) (message : String)
    (position : Option Position) : Prop :=
  ∃ problem, diagnostics = [problem] ∧ problem.severity = .error ∧ problem.message = message ∧
    problem.position = position

/-- Where there is no element, its class is not looked at. -/
theorem diagnostics_resolve (wanted : ElementClass)
    (h : (registry.resolveAfter [] reference position byName).value = none) :
    (registry.resolve reference position byName wanted).diagnostics =
      (registry.resolveAfter [] reference position byName).diagnostics := by
  unfold resolve
  rw [Reported.bind_diagnostics, h]
  exact List.append_nil _

/-- A reference whose aliases come back to a reference is refused, with all up to this one. -/
theorem AliasTrail.resolveAfter_of_mem (h : registry.AliasTrail reference trail last)
    (hn : trail.Nodup) (hm : last ∈ trail) :
    registry.resolveAfter [] reference position byName = .circular (trail ++ [last]) position := by
  have hnodup : ([] ++ trail).Nodup := hn
  have hnone : registry.get? last = none := by
    obtain ⟨_, ha⟩ := h.exists_aliasOf? hm
    exact (aliasOf?_eq_some_iff.mp ha).2.1
  rw [h.resolveAfter_eq hnodup hnone, List.nil_append, Registry.resolveAfter_of_mem hm]

/-- Where the last reference of a trail that ends is a word that resolves to nothing, all references
of the trail are told. -/
theorem AliasTrail.resolveAfter_of_value_none (h : registry.AliasTrail reference trail last)
    (hl : registry.aliasOf? last = none) (hr : ¬(last = "this" ∨ last = "parent"))
    (hp : isPath last = false)
    (hv : (registry.resolveAfter [] last position byName).value = none) :
    registry.resolveAfter [] reference position byName =
      .missing (.unresolved (trail ++ [last])) position := by
  have hn : ([] ++ trail).Nodup := h.nodup hl
  have hnone : registry.get? last = none := by
    cases hg : registry.get? last with
    | none => rfl
    | some entry =>
      rw [(here last).value_of_get? List.nodup_nil List.not_mem_nil hr hg] at hv
      cases hv
  have hs : registry.Settles trail last := by
    refine ⟨h.last_notMem hl, fun target step => ?_, fun step => ?_⟩
    · cases hl.symm.trans step.aliasOf?_eq
    · cases hp.symm.trans step.path
  rw [(hs.within List.not_mem_nil).value] at hv
  rw [h.resolveAfter_eq hn hnone, List.nil_append, hs.resolveAfter_eq, settlement, if_neg hr, hv]

/-- Where no element has `this` or `parent` for its identifier, a reference is resolved without
going deeper than to all that aliases stand for and all first parts of paths, and two levels more.
Following its aliases comes back to a reference or ends. If it comes back, the reference resolves to
nothing, and just this is reported, with the references up to the first one that comes back. If it
ends, the reference resolves to what the last reference resolves to; and if this is nothing although
the last one is a word that is not relative, all references are told where there is a position. -/
theorem resolve_follows_aliases (registry : Registry) (hthis : registry.get? "this" = none)
    (hparent : registry.get? "parent" = none) (reference : String) (position : Option Position)
    (byName : Bool) (wanted : ElementClass) :
    registry.resolveWithin ((registry.landings reference).length + 2) [] reference position
        byName = some (registry.resolveAfter [] reference position byName) ∧
      (∃ trail last, registry.AliasTrail reference trail last ∧ trail.Nodup ∧
        (last ∈ trail ∨ registry.aliasOf? last = none)) ∧
      ∀ trail last, registry.AliasTrail reference trail last →
        (trail.Nodup → last ∈ trail →
          (registry.resolve reference position byName wanted).value = none ∧
            ReportsOnly (registry.resolve reference position byName wanted).diagnostics
              ("Circular reference detected: " ++ String.intercalate " → " (trail ++ [last]))
              position) ∧
          (registry.aliasOf? last = none →
            (registry.resolve reference position byName wanted).value =
                (registry.resolve last position byName wanted).value ∧
              (¬(last = "this" ∨ last = "parent") → isPath last = false →
                (registry.resolve last position byName).value = none → position.isSome = true →
                ReportsOnly (registry.resolve reference position byName wanted).diagnostics
                  ("Could not resolve reference: " ++ String.intercalate " → " (trail ++ [last]))
                  position)) := by
  refine ⟨resolveWithin_eq List.mem_cons_self (fun _ => List.mem_cons_self) ?_, ?_, ?_⟩
  · have hle := List.length_filter_le (fun stop => decide (stop ∉ ([] : List String)))
      (reference :: registry.landings reference)
    rw [List.length_cons] at hle
    omega
  · exact registry.exists_aliasTrail [] reference List.nodup_nil
  · intro trail last htrail
    refine ⟨fun hn hm => ?_, fun hl => ⟨?_, fun hr hp hv hposition => ?_⟩⟩
    · have hback : registry.resolveAfter [] reference position byName =
          .circular (trail ++ [last]) position := htrail.resolveAfter_of_mem hn hm
      have hvalue : (registry.resolveAfter [] reference position byName).value = none := by
        rw [hback]
        rfl
      rw [value_resolve, diagnostics_resolve wanted hvalue, hback]
      exact ⟨rfl, _, rfl, rfl, rfl, rfl⟩
    · rw [value_resolve, value_resolve, htrail.value_eq hl hthis hparent]
    · rw [value_resolve_element] at hv
      have hmissing : registry.resolveAfter [] reference position byName =
          .missing (.unresolved (trail ++ [last])) position :=
        htrail.resolveAfter_of_value_none hl hr hp hv
      have hvalue : (registry.resolveAfter [] reference position byName).value = none := by
        rw [hmissing]
        rfl
      obtain ⟨place, rfl⟩ := Option.isSome_iff_exists.mp hposition
      rw [diagnostics_resolve wanted hvalue, hmissing]
      exact ⟨_, rfl, rfl, rfl, rfl⟩

/-- An alias that leads to a cycle of two others. -/
def looping : Registry :=
  ((Registry.empty.registerAlias "a" "b").registerAlias "b" "c").registerAlias "c" "b"

/-- The alias resolves to nothing, and the cycle is told although there is no position. -/
theorem resolve_follows_aliases_looping :
    looping.get? "this" = none ∧ looping.get? "parent" = none ∧
      (looping.resolve "a" none).value = none ∧
      ReportsOnly (looping.resolve "a" none).diagnostics
        "Circular reference detected: a → b → c → b" none := by
  have htrail : looping.AliasTrail "a" ["a", "b", "c"] "b" :=
    .step (by decide) (.step (by decide) (.step (by decide) (.here "b")))
  have h := (resolve_follows_aliases looping rfl rfl "a" none true .element).2.2 _ _ htrail
  obtain ⟨hvalue, hreport⟩ := h.1 (by decide) (by decide)
  have htext : "Circular reference detected: " ++
      String.intercalate " → " (["a", "b", "c"] ++ ["b"]) =
      "Circular reference detected: a → b → c → b" := by
    decide +kernel
  rw [htext] at hreport
  exact ⟨rfl, rfl, hvalue, hreport⟩

end Registry

end Blueprint
