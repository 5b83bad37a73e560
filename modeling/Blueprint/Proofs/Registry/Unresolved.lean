import Blueprint.Proofs.Registry.Lookup

/-!
# References that resolve to nothing

A reference that has a position resolves to an element, or an error is reported: this holds of
relative references, identifiers, aliases, paths and names, and of references that come back to
themselves. So where no error is reported every reference with a position has its element.
-/

namespace Blueprint

namespace Reported

variable {α β : Type}

/-- No error is reported. -/
def Clean (reported : Reported α) : Prop :=
  ∀ diagnostic ∈ reported.diagnostics, diagnostic.isError = false

/-- No error is reported by two computations together exactly if neither reports one. -/
theorem clean_bind {first : Reported α} {next : α → Reported β} :
    (first >>= next).Clean ↔ first.Clean ∧ (next first.value).Clean := by
  unfold Clean
  rw [bind_diagnostics]
  constructor
  · intro h
    exact ⟨fun d hd => h d (List.mem_append_left _ hd),
      fun d hd => h d (List.mem_append_right _ hd)⟩
  · rintro ⟨hf, hn⟩ diagnostic hd
    rcases List.mem_append.mp hd with hd | hd
    · exact hf diagnostic hd
    · exact hn diagnostic hd

/-- The report of an error is none of no error. -/
theorem not_clean_report {issue : Issue} {position : Option Position}
    (h : issue.severity.isError = true) : ¬(Reported.report issue position).Clean := by
  intro hc
  have hd := hc (.of issue position) List.mem_cons_self
  rw [Diagnostic.isError, Diagnostic.of, h] at hd
  cases hd

end Reported

namespace Resolution

/-- A missing element is an error where the reference has a position. -/
theorem not_clean_missing {issue : ReferenceIssue} {position : Option Position}
    (h : position.isSome = true) : ¬(Resolution.missing issue position).Clean := by
  obtain ⟨place, rfl⟩ := Option.isSome_iff_exists.mp h
  intro hc
  cases hc (.of (.reference issue) (some place)) List.mem_cons_self

/-- A reference that comes back to itself is an error. -/
theorem not_clean_circular (chain : List String) (position : Option Position) :
    ¬(Resolution.circular chain position).Clean := by
  intro hc
  cases hc (.of (.reference (.circular chain)) position) List.mem_cons_self

end Resolution

namespace Registry

variable {registry : Registry} {position : Option Position}

/-- A relative reference without an error has an element. -/
theorem resolveRelative_found (hp : position.isSome = true) {word : String}
    (hc : (registry.resolveRelative word position).Clean) :
    ∃ entry, (registry.resolveRelative word position).value = some entry := by
  unfold resolveRelative at hc ⊢
  split at hc
  · exact absurd hc (Resolution.not_clean_missing hp)
  · split at hc
    · rename_i hw
      rw [if_pos hw]
      exact ⟨_, rfl⟩
    · rename_i hw
      rw [if_neg hw]
      split at hc
      · exact ⟨_, rfl⟩
      · exact absurd hc (Resolution.not_clean_missing hp)

/-- A path that is followed without an error leads to an element. -/
theorem followPath_found (hp : position.isSome = true) {path : String} {parts : List String}
    {start : Entry} (hc : (registry.followPath path position start parts).Clean) :
    ∃ entry, (registry.followPath path position start parts).value = some entry := by
  induction parts generalizing start with
  | nil => exact ⟨start, rfl⟩
  | cons part parts ih =>
    rw [followPath] at hc ⊢
    split at hc
    · exact ih hc
    · exact absurd hc (Resolution.not_clean_missing hp)

/-- A reference without an error has an element, wherever it comes from. -/
theorem resolveAfter_found (hp : position.isSome = true) {chain : List String}
    {reference : String} {byName : Bool}
    (hc : (registry.resolveAfter chain reference position byName).Clean) :
    ∃ entry, (registry.resolveAfter chain reference position byName).value = some entry := by
  fun_induction resolveAfter registry chain reference position byName with
  | case1 => exact absurd hc (Resolution.not_clean_circular _ _)
  | case2 => exact resolveRelative_found hp hc
  | case3 _ _ _ _ _ _ entry => exact ⟨entry, rfl⟩
  | case4 _ _ _ _ _ _ _ _ _ entry => exact ⟨entry, rfl⟩
  | case5 _ _ _ _ _ _ _ _ _ _ ih => exact ih hp hc
  | case6 =>
    rw [Reported.bind_value]
    have hn := (Reported.clean_bind.mp hc).2
    split
    · rename_i entry he
      rw [he] at hn
      exact followPath_found hp hn
    · rename_i he
      rw [he] at hn
      exact absurd hn (Resolution.not_clean_missing hp)
  | case7 _ _ _ _ _ _ _ _ _ entry => exact ⟨entry, rfl⟩
  | case8 => exact absurd hc (Resolution.not_clean_missing hp)

/-- A reference to an element of a class that is resolved without an error has an element. -/
theorem resolve_found (hp : position.isSome = true) {reference : String} {byName : Bool}
    {wanted : ElementClass} (hc : (registry.resolve reference position byName wanted).Clean) :
    ∃ entry, (registry.resolve reference position byName wanted).value = some entry := by
  unfold resolve at hc ⊢
  rw [Reported.clean_bind] at hc
  rw [Reported.bind_value]
  obtain ⟨entry, he⟩ := resolveAfter_found hp hc.1
  have hn := hc.2
  rw [he] at hn ⊢
  dsimp only at hn ⊢
  split at hn
  · rename_i hk
    rw [if_pos hk]
    exact ⟨entry, rfl⟩
  · exact absurd hn (Resolution.not_clean_missing hp)

/-- The reference `this` stands for the context. -/
theorem resolve_this {id : String} {byName : Bool} {wanted : ElementClass} {entry : Entry}
    (h : ((registry.withContext (some id)).resolve "this" position byName wanted).value =
      some entry) : registry.get? id = some entry := by
  unfold resolve at h
  rw [Reported.bind_value] at h
  have hr : (registry.withContext (some id)).resolveAfter [] "this" position byName =
      (registry.withContext (some id)).resolveRelative "this" position := by
    rw [resolveAfter, dif_neg (by simp), if_pos (.inl rfl)]
  have hb : (registry.withContext (some id)).context.bind
      (registry.withContext (some id)).get? = registry.get? id := rfl
  rw [hr] at h
  unfold resolveRelative at h
  rw [hb] at h
  cases hg : registry.get? id with
  | none =>
    rw [hg] at h
    cases h
  | some found =>
    rw [hg] at h
    dsimp only at h
    rw [if_pos rfl] at h
    simp only [Resolution.found, Reported.pure_value] at h
    split at h
    · cases h
      rfl
    · cases h

/-- Where there is no context, the reference `this` stands for nothing. -/
theorem resolve_this_outside {byName : Bool} {wanted : ElementClass} :
    ((registry.withContext none).resolve "this" position byName wanted).value = none := by
  unfold resolve
  rw [Reported.bind_value]
  have hr : (registry.withContext none).resolveAfter [] "this" position byName =
      (registry.withContext none).resolveRelative "this" position := by
    rw [resolveAfter, dif_neg (by simp), if_pos (.inl rfl)]
  rw [hr]
  rfl

end Registry

end Blueprint
