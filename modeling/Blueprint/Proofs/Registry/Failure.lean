import Blueprint.Proofs.Registry.Consistent

/-!
# What is reported about a reference

Resolving a reference changes nothing in the registry. It yields an element and reports nothing, or
it yields none and says why once, where the reference stands. Only a path may say more: that its
first part comes back to a reference that is being followed is reported too, without a place, before
the path itself fails.
-/

namespace Blueprint

namespace Registry

variable {registry : Registry} {chain : List String} {reference target : String}
  {position : Option Position}

/-! ## How references lead to references -/

/-- A reference is an alias for another one, under which no element is registered. -/
structure AliasStep (registry : Registry) (chain : List String) (reference target : String) :
    Prop where
  /-- It is not being followed yet. -/
  new : reference ∉ chain
  /-- It is not relative to the context. -/
  notRelative : ¬(reference = "this" ∨ reference = "parent")
  /-- It is no identifier. -/
  noElement : registry.get? reference = none
  /-- The alias stands for the other one. -/
  known : registry.aliases.get? reference = some target
  /-- The other one is no identifier. -/
  dangling : registry.get? target = none

/-- A reference is a path, whose first part is resolved on its own. -/
structure PathStep (registry : Registry) (chain : List String) (reference : String) : Prop where
  /-- It is not being followed yet. -/
  new : reference ∉ chain
  /-- It is not relative to the context. -/
  notRelative : ¬(reference = "this" ∨ reference = "parent")
  /-- It is no identifier. -/
  noElement : registry.get? reference = none
  /-- It is no alias. -/
  noAlias : registry.aliases.get? reference = none
  /-- It has parts. -/
  path : isPath reference = true

/-- Following a reference comes back to one that is being followed. -/
inductive ComesBack (registry : Registry) : List String → String → Prop
  /-- It is being followed. -/
  | here {chain : List String} {reference : String} (h : reference ∈ chain) :
    ComesBack registry chain reference
  /-- What it is an alias for comes back. -/
  | byAlias {chain : List String} {reference target : String}
    (step : registry.AliasStep chain reference target)
    (h : ComesBack registry (chain ++ [reference]) target) : ComesBack registry chain reference
  /-- Its first part comes back. -/
  | byPath {chain : List String} {reference : String} (step : registry.PathStep chain reference)
    (h : ComesBack registry (chain ++ [reference]) (firstPart reference)) :
    ComesBack registry chain reference

/-- A reference is a path, or an alias for one in the end, whose first part comes back to a
reference that is being followed. -/
inductive StartComesBack (registry : Registry) : List String → String → Prop
  /-- What it is an alias for is such a reference. -/
  | byAlias {chain : List String} {reference target : String}
    (step : registry.AliasStep chain reference target)
    (h : StartComesBack registry (chain ++ [reference]) target) :
    StartComesBack registry chain reference
  /-- Its first part comes back. -/
  | byPath {chain : List String} {reference : String} (step : registry.PathStep chain reference)
    (h : ComesBack registry (chain ++ [reference]) (firstPart reference)) :
    StartComesBack registry chain reference

/-- An alias for a reference is an alias for no other, and it is no path. -/
theorem AliasStep.unique {other : String} (step : registry.AliasStep chain reference target)
    (h : registry.AliasStep chain reference other) : other = target := by
  have he := step.known.symm.trans h.known
  exact (Option.some.inj he).symm

/-- An alias is not taken for a path. -/
theorem AliasStep.not_pathStep (step : registry.AliasStep chain reference target) :
    ¬registry.PathStep chain reference := by
  intro h
  have he := step.known.symm.trans h.noAlias
  cases he

/-- An alias comes back exactly if what it stands for does. -/
theorem AliasStep.comesBack_iff (step : registry.AliasStep chain reference target) :
    registry.ComesBack chain reference ↔ registry.ComesBack (chain ++ [reference]) target := by
  refine ⟨fun h => ?_, .byAlias step⟩
  cases h with
  | here h => exact absurd h step.new
  | byAlias other h => exact step.unique other ▸ h
  | byPath other => exact absurd other step.not_pathStep

/-- The start of an alias comes back exactly if that of what it stands for does. -/
theorem AliasStep.startComesBack_iff (step : registry.AliasStep chain reference target) :
    registry.StartComesBack chain reference ↔
      registry.StartComesBack (chain ++ [reference]) target := by
  refine ⟨fun h => ?_, .byAlias step⟩
  cases h with
  | byAlias other h => exact step.unique other ▸ h
  | byPath other => exact absurd other step.not_pathStep

/-- A path comes back exactly if its first part does. -/
theorem PathStep.comesBack_iff (step : registry.PathStep chain reference) :
    registry.ComesBack chain reference ↔
      registry.ComesBack (chain ++ [reference]) (firstPart reference) := by
  refine ⟨fun h => ?_, .byPath step⟩
  cases h with
  | here h => exact absurd h step.new
  | byAlias other => exact absurd step other.not_pathStep
  | byPath _ h => exact h

/-- The start of a path is its first part. -/
theorem PathStep.startComesBack_iff (step : registry.PathStep chain reference) :
    registry.StartComesBack chain reference ↔
      registry.ComesBack (chain ++ [reference]) (firstPart reference) := by
  refine ⟨fun h => ?_, .byPath step⟩
  cases h with
  | byAlias other => exact absurd step other.not_pathStep
  | byPath _ h => exact h

/-- A reference whose start comes back comes back. -/
theorem StartComesBack.comesBack (h : registry.StartComesBack chain reference) :
    registry.ComesBack chain reference := by
  induction h with
  | byAlias step _ ih => exact .byAlias step ih
  | byPath step h => exact .byPath step h

/-- A reference that is not being followed and leads to no other does not come back. -/
theorem not_comesBack (hn : reference ∉ chain)
    (ha : ∀ target, ¬registry.AliasStep chain reference target)
    (hp : ¬registry.PathStep chain reference) : ¬registry.ComesBack chain reference := by
  intro h
  cases h with
  | here h => exact hn h
  | byAlias step => exact ha _ step
  | byPath step => exact hp step

/-- What is being followed already is followed no further. -/
theorem not_startComesBack (h : reference ∈ chain) :
    ¬registry.StartComesBack chain reference := by
  rintro (step | step)
  · exact step.new h
  · exact step.new h

/-! ## What a failure reports -/

/-- What is reported where a reference resolves to nothing. -/
inductive Failure (registry : Registry) (chain : List String) (reference : String)
    (position : Option Position) : List Diagnostic → Prop
  /-- The reference does not come back: one problem, if it has a position. -/
  | missing (issue : ReferenceIssue) (h : ¬registry.ComesBack chain reference) :
    Failure registry chain reference position (Resolution.missing issue position).diagnostics
  /-- Its aliases come back: that is the only problem. -/
  | circular (trace : List String) (h : registry.ComesBack chain reference)
    (hs : ¬registry.StartComesBack chain reference) :
    Failure registry chain reference position (Resolution.circular trace position).diagnostics
  /-- Its start comes back, which is reported without a position; then the path fails. -/
  | start (trace : List String) (issue : ReferenceIssue)
    (h : registry.StartComesBack chain reference) :
    Failure registry chain reference position
      ((Resolution.circular trace none).diagnostics ++
        (Resolution.missing issue position).diagnostics)

/-- What can be said of a resolution that a chain of references led to: with an element it reports
nothing and nothing comes back, and without one it is a failure. -/
def Accounts (registry : Registry) (chain : List String) (reference : String)
    (position : Option Position) (resolution : Resolution) : Prop :=
  match resolution.value with
  | some _ => resolution.diagnostics = [] ∧ ¬registry.ComesBack chain reference
  | none => registry.Failure chain reference position resolution.diagnostics

/-- An element is found without a report. -/
theorem accounts_found (h : ¬registry.ComesBack chain reference) (entry : Entry) :
    registry.Accounts chain reference position (.found entry) :=
  ⟨rfl, h⟩

/-- An element is missing with one report. -/
theorem accounts_missing (h : ¬registry.ComesBack chain reference) (issue : ReferenceIssue) :
    registry.Accounts chain reference position (.missing issue position) :=
  .missing issue h

/-- A relative reference is found or missing. -/
theorem accounts_resolveRelative (h : ¬registry.ComesBack chain reference) (word : String) :
    registry.Accounts chain reference position (registry.resolveRelative word position) := by
  unfold resolveRelative
  split
  · exact accounts_missing h _
  · split
    · exact accounts_found h _
    · split
      · exact accounts_found h _
      · exact accounts_missing h _

/-- The parts of a path lead to an element, or one is missing. -/
theorem accounts_followPath (h : ¬registry.ComesBack chain reference) (path : String)
    (start : Entry) (parts : List String) :
    registry.Accounts chain reference position
      (registry.followPath path position start parts) := by
  induction parts generalizing start with
  | nil => exact accounts_found h start
  | cons part parts ih =>
    unfold followPath
    split
    · exact ih _
    · exact accounts_missing h _

/-- What an alias stands for accounts for the alias. -/
theorem AliasStep.accounts (step : registry.AliasStep chain reference target)
    {resolution : Resolution}
    (h : registry.Accounts (chain ++ [reference]) target position resolution) :
    registry.Accounts chain reference position resolution := by
  obtain ⟨value, diagnostics⟩ := resolution
  cases value with
  | some entry =>
    obtain ⟨rfl, hn⟩ : diagnostics = [] ∧ _ := h
    exact accounts_found (fun hc => hn (step.comesBack_iff.mp hc)) entry
  | none =>
    cases (show registry.Failure _ _ _ diagnostics from h) with
    | missing issue hn => exact .missing issue fun hc => hn (step.comesBack_iff.mp hc)
    | circular trace hc hn =>
      exact .circular trace (step.comesBack_iff.mpr hc) fun hs =>
        hn (step.startComesBack_iff.mp hs)
    | start trace issue hs => exact .start trace issue (step.startComesBack_iff.mpr hs)

/-- What a path does after its first part accounts for the path: the first part is resolved without
a position, so of its failure only what comes back is reported. -/
theorem PathStep.accounts (step : registry.PathStep chain reference) {first : Resolution}
    (h : registry.Accounts (chain ++ [reference]) (firstPart reference) none first) :
    registry.Accounts chain reference position
      (first >>= fun
        | some entry => registry.followPath reference position entry (pathParts reference).tail
        | none => Resolution.missing (.pathPart (firstPart reference) reference) position) := by
  obtain ⟨value, diagnostics⟩ := first
  cases value with
  | some entry =>
    obtain ⟨rfl, hn⟩ : diagnostics = [] ∧ _ := h
    exact accounts_followPath (fun hc => hn (step.comesBack_iff.mp hc)) _ _ _
  | none =>
    cases (show registry.Failure _ _ none diagnostics from h) with
    | missing issue hn =>
      exact accounts_missing (fun hc => hn (step.comesBack_iff.mp hc)) _
    | circular trace hc => exact .start trace _ (step.startComesBack_iff.mpr hc)
    | start trace issue hs => exact .start trace _ (step.startComesBack_iff.mpr hs.comesBack)

/-- Whatever chain of references led to a reference, its resolution is accounted for. -/
theorem accounts_resolveAfter (registry : Registry) (chain : List String) (reference : String)
    (position : Option Position) (byName : Bool) :
    registry.Accounts chain reference position
      (registry.resolveAfter chain reference position byName) := by
  fun_induction resolveAfter registry chain reference position byName with
  | case1 chain reference position _ hm =>
    exact .circular _ (.here hm) (not_startComesBack hm)
  | case2 chain reference position _ hn hr =>
    exact accounts_resolveRelative
      (not_comesBack hn (fun _ step => step.notRelative hr) fun step => step.notRelative hr) _
  | case3 chain reference position _ hn _ entry hg =>
    refine accounts_found (not_comesBack hn (fun _ step => ?_) fun step => ?_) entry
    · cases hg.symm.trans step.noElement
    · cases hg.symm.trans step.noElement
  | case4 chain reference position _ hn _ _ target ha entry hg =>
    refine accounts_found (not_comesBack hn (fun other step => ?_) fun step => ?_) entry
    · have he : target = other := Option.some.inj (ha.symm.trans step.known)
      cases hg.symm.trans (he ▸ step.dangling)
    · cases ha.symm.trans step.noAlias
  | case5 chain reference position _ hn hr hg target ha hd ih =>
    exact AliasStep.accounts ⟨hn, hr, hg, ha, hd⟩ ih
  | case6 chain reference position _ hn hr hg ha hp ih =>
    exact PathStep.accounts ⟨hn, hr, hg, ha, hp⟩ ih
  | case7 chain reference position _ hn _ _ ha hp entry =>
    refine accounts_found (not_comesBack hn (fun _ step => ?_) fun step => hp step.path) entry
    cases ha.symm.trans step.known
  | case8 chain reference position _ hn _ _ ha hp =>
    refine accounts_missing (not_comesBack hn (fun _ step => ?_) fun step => hp step.path) _
    cases ha.symm.trans step.known

/-- A resolution to an element of a class is accounted for: an element of another class is missing
too. -/
theorem accounts_resolve (registry : Registry) (reference : String) (position : Option Position)
    (byName : Bool) (wanted : ElementClass) :
    registry.Accounts [] reference position
      (registry.resolve reference position byName wanted) := by
  have h := registry.accounts_resolveAfter [] reference position byName
  unfold resolve
  generalize registry.resolveAfter [] reference position byName = first at h ⊢
  obtain ⟨value, diagnostics⟩ := first
  cases value with
  | some entry =>
    obtain ⟨rfl, hn⟩ : diagnostics = [] ∧ _ := h
    show registry.Accounts [] reference position (if _ then _ else _)
    split
    · exact accounts_found hn entry
    · exact accounts_missing hn _
  | none =>
    show registry.Failure _ _ _ (diagnostics ++ [])
    rw [List.append_nil]
    exact h

/-- Resolving a reference changes nothing: whatever is done with the registry afterwards is done as
without it. An element that it finds is registered and of the wanted class, and nothing is reported.
Where it finds none and the reference has a position, one error is reported, and it is at this
position; only if the reference leads to a path whose first part comes back to a reference that is
being followed, there is one more error before, which says so and has no position. Where the
reference has no position, only what comes back is reported. -/
theorem resolve_reports (registry : Registry) (reference : String) (position : Option Position)
    (byName : Bool) (wanted : ElementClass) :
    (∀ later : List Operation,
        (registry.performAll (.resolve reference position byName wanted :: later)).value =
          (registry.performAll later).value ∧
        (registry.performAll (.resolve reference position byName wanted :: later)).diagnostics =
          (registry.resolve reference position byName wanted).diagnostics ++
            (registry.performAll later).diagnostics) ∧
      (∀ entry, (registry.resolve reference position byName wanted).value = some entry →
        entry ∈ registry.all ∧ entry.kind.isA wanted = true ∧
          (registry.resolve reference position byName wanted).diagnostics = []) ∧
      ((registry.resolve reference position byName wanted).value = none →
        (∀ place, position = some place →
          (¬registry.StartComesBack [] reference →
            ∃ problem, problem.isError = true ∧ problem.position = some place ∧
              (registry.resolve reference position byName wanted).diagnostics = [problem]) ∧
          (registry.StartComesBack [] reference →
            ∃ trace problem, problem.isError = true ∧ problem.position = some place ∧
              (registry.resolve reference position byName wanted).diagnostics =
                [.of (.reference (.circular trace)) none, problem])) ∧
        (position = none →
          ∀ problem ∈ (registry.resolve reference position byName wanted).diagnostics,
            ∃ trace, problem = .of (.reference (.circular trace)) none)) := by
  refine ⟨fun later => ⟨?_, ?_⟩, fun entry he => ?_, fun hv => ?_⟩
  · rfl
  · show ((registry.resolve reference position byName wanted).diagnostics ++ []) ++ _ = _
    rw [List.append_nil]
    rfl
  · have ha := registry.accounts_resolve reference position byName wanted
    unfold Accounts at ha
    rw [he] at ha
    exact ⟨(resolve_mem he).1, (resolve_mem he).2, ha.1⟩
  · have ha := registry.accounts_resolve reference position byName wanted
    unfold Accounts at ha
    rw [hv] at ha
    refine ⟨?_, ?_⟩
    · rintro place rfl
      generalize (registry.resolve reference (some place) byName wanted).diagnostics = reported
        at ha
      cases ha with
      | missing issue h => exact ⟨fun _ => ⟨_, rfl, rfl, rfl⟩, fun hs => absurd hs.comesBack h⟩
      | circular trace _ hn => exact ⟨fun _ => ⟨_, rfl, rfl, rfl⟩, fun hs => absurd hs hn⟩
      | start trace issue hs => exact ⟨fun hn => absurd hs hn, fun _ => ⟨trace, _, rfl, rfl, rfl⟩⟩
    · rintro rfl
      generalize (registry.resolve reference none byName wanted).diagnostics = reported at ha
      cases ha with
      | missing issue => exact fun _ hm => absurd hm List.not_mem_nil
      | circular trace => exact fun _ hm => ⟨trace, List.mem_singleton.mp hm⟩
      | start trace => exact fun _ hm => ⟨trace, List.mem_singleton.mp hm⟩

/-- An alias for a path that starts with the alias itself: the start comes back, and the path
fails. -/
example :
    ((Registry.empty.registerAlias "a" "a.b").resolve "a" (some ⟨1, 1, 0⟩)).diagnostics.map
        Diagnostic.describe =
      ["ERROR: Circular reference detected: a → a.b → a",
        "ERROR: Could not resolve path segment \"a\" in path \"a.b\" (line 1, column 1)"] := by
  decide +kernel

end Registry

end Blueprint
