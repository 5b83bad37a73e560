import Blueprint.Build.Workspace
import Blueprint.Proofs.Qualified.Draft

/-!
# Instances with longer identifiers around them

Instances keep the identifiers that they are given, but where identifiers are hierarchical the
reference of an instance may stand for another element than before, or for none. Registering under
full identifiers is therefore compared with a registration under short ones in which each instance
is one of what its reference still stands for. That differs from what is registered without the
directive in the names of instances only, since an instance has the name of what it is an instance
of. No lookup of a name can tell: an element with the same name comes before it.
-/

namespace Blueprint

/-- What the registry knows of an element, but for its name. -/
def Entry.unnamed (entry : Entry) : Entry := { entry with name := "" }

/-- Entries that differ in their names have one identifier and one parent. -/
theorem Entry.of_unnamed_eq {entry other : Entry} (h : other.unnamed = entry.unnamed) :
    other.id = entry.id ∧ other.parent = entry.parent := by
  obtain ⟨hid, -, hparent, -⟩ := Entry.mk.inj h
  exact ⟨hid, hparent⟩

namespace Registry

variable {registry first second : Registry} {entry other : Entry}

/-! ## Names that are borrowed -/

/-- The entry has the name of an element that is registered. -/
def Borrows (registry : Registry) (entry : Entry) : Prop :=
  ∃ owner ∈ registry.all, owner.name = entry.name

/-- The first entry that is found by its name is the same with one more that has the name of
another one. -/
theorem find?_borrowed {entries : List Entry} {owner : Entry} (hm : owner ∈ entries)
    (hn : owner.name = entry.name) (holds : String → Bool) :
    ((entries ++ [entry]).find? fun entry => holds entry.name) =
      entries.find? fun entry => holds entry.name := by
  rw [List.find?_append]
  cases hf : entries.find? fun entry => holds entry.name with
  | some found => rfl
  | none =>
    have howner : holds owner.name ≠ true := List.find?_eq_none.mp hf owner hm
    rw [Option.none_or, List.find?_singleton, if_neg (hn ▸ howner)]

/-- Among short identifiers a name stands for the first element that has it, or else for the first
one that has it up to the case of letters. -/
theorem Short.resolveName_eq (h : registry.Short) (name : String) :
    registry.resolveName name =
      (registry.all.find? fun entry => entry.name == name).or
        (registry.all.find? fun entry => entry.hasNameLike name) :=
  (h.indexed.resolveName_eq_iff.mpr fun hr => h.named.not_released hr.1).trans
    (h.named.findByName h.indexed)

/-- Names stand for the same elements when one joins that has the name of another one. -/
theorem Short.resolveName_register (h : registry.Short) (hj : registry.Joins entry)
    (hb : registry.Borrows entry) (name : String) :
    (registry.register entry).resolveName name = registry.resolveName name := by
  obtain ⟨owner, hm, hn⟩ := hb
  rw [(h.register hj).resolveName_eq, h.resolveName_eq, all_register hj.fresh,
    find?_borrowed hm hn fun own => own == name]
  exact congrArg (Option.or _) (find?_borrowed hm hn fun own => Text.lower own == Text.lower name)

/-! ## Registries that differ in names -/

/-- Two registries have the same elements but for their names, and each name stands for the same
element in both. -/
structure Alike (first second : Registry) : Prop where
  /-- The elements are the same but for their names. -/
  entries : ∀ id, (second.get? id).map Entry.unnamed = (first.get? id).map Entry.unnamed
  /-- A name stands for the same element. -/
  names : ∀ name, second.resolveName name = first.resolveName name
  /-- The context is the same. -/
  context : second.context = first.context

namespace Alike

/-- A registry is like itself. -/
theorem refl (registry : Registry) : Alike registry registry :=
  ⟨fun _ => rfl, fun _ => rfl, rfl⟩

/-- What is registered in the one is registered in the other, with the same parent. -/
theorem exists_entry (h : Alike first second) {id : String} (hg : second.get? id = some other) :
    ∃ entry, first.get? id = some entry ∧ entry.parent = other.parent := by
  have hentries := h.entries id
  rw [hg] at hentries
  obtain ⟨entry, he, hsame⟩ := Option.map_eq_some_iff.mp hentries.symm
  exact ⟨entry, he, (Entry.of_unnamed_eq hsame).2⟩

/-- What is new to the one is new to the other. -/
theorem fresh (h : Alike first second) {id : String} (hn : first.get? id = none) :
    second.get? id = none := by
  have hentries := h.entries id
  rw [hn] at hentries
  exact Option.map_eq_none_iff.mp hentries

/-- Registries stay alike when elements join that differ in their names, if those are borrowed. -/
theorem register (h : Alike first second) (hf : first.Short) (hs : second.Short)
    (hj : first.Joins entry) (hk : second.Joins other) (hb : first.Borrows entry)
    (hc : second.Borrows other) (he : other.unnamed = entry.unnamed) :
    Alike (first.register entry) (second.register other) := by
  have hid := (Entry.of_unnamed_eq he).1
  refine ⟨fun id => ?_, fun name => ?_, ?_⟩
  · rw [get?_register, get?_register, hid]
    split
    · exact congrArg some he
    · exact h.entries id
  · rw [hs.resolveName_register hk hc, hf.resolveName_register hj hb]
    exact h.names name
  · rw [context_register, context_register]
    exact h.context

/-- Registries stay alike when the context changes. -/
theorem withContext (h : Alike first second) (context : Option String) :
    Alike (first.withContext context) (second.withContext context) :=
  ⟨h.entries, h.names, rfl⟩

/-- A relative reference stands for the same element but for its name. -/
theorem relativeMeaning (h : Alike first second) (word : String) :
    (second.relativeMeaning word).map Entry.unnamed =
      (first.relativeMeaning word).map Entry.unnamed := by
  unfold Registry.relativeMeaning
  rw [h.context]
  cases first.context with
  | none => rfl
  | some id =>
    have hentries := h.entries id
    rw [Option.bind_some, Option.bind_some]
    cases hg : second.get? id with
    | none =>
      rw [hg] at hentries
      rw [Option.map_eq_none_iff.mp hentries.symm]
      rfl
    | some other =>
      rw [hg] at hentries
      obtain ⟨entry, he, hsame⟩ := Option.map_eq_some_iff.mp hentries.symm
      rw [he, Option.bind_some, Option.bind_some, (Entry.of_unnamed_eq hsame).2]
      split
      · exact congrArg some hsame.symm
      · cases other.parent with
        | none => rfl
        | some parent => exact h.entries parent

/-- A word stands for the same element but for its name. -/
theorem wordMeaning (h : Alike first second) (hf : first.Short) (hs : second.Short)
    (word : String) :
    (second.wordMeaning word).map Entry.unnamed = (first.wordMeaning word).map Entry.unnamed := by
  unfold Registry.wordMeaning
  split
  · exact h.relativeMeaning word
  · rw [hf.unaliased, hs.unaliased, Option.bind_none, Option.bind_none, Option.none_or,
      Option.none_or, h.names, Option.map_or, Option.map_or, h.entries]

end Alike

end Registry

namespace Build

open Registry (isPath)

variable {first draft mirror : Draft} {waiting other : WaitingInstance}

/-! ## What references of instances still stand for -/

/-- Registers an instance, under the identifier that it is given, of what its reference still stands
for where identifiers are hierarchical. -/
def registerLasting (draft : Draft) (waiting : WaitingInstance) : Option Draft := do
  let id ← waiting.declared.identifier
  let target ← draft.registry.lastingMeaningOf waiting.declared.reference
    (instanceTarget waiting.declared.instanceOf)
  return (draft.add (instanceElement waiting target id)).await waiting.relationships (some id)

/-- All elements under the identifiers that they are given, with each instance as one of what its
reference still stands for where identifiers are hierarchical. There is no such draft if a reference
stands for nothing of its class any more. -/
def lastingDraft? (declared : Declared.Workspace) : Option Draft :=
  let draft := (registerDeclared false declared.model).value
  draft.instances.foldlM registerLasting draft

/-! ## Drafts that differ in the names of instances -/

/-- Two drafts have the same elements, but for the names of instances, and the same relationships
wait in both. -/
structure Draft.Alike (first second : Draft) : Prop where
  /-- The identifiers of the one are short. -/
  short : first.registry.Short
  /-- The registries are alike. -/
  registry : first.registry.Alike second.registry
  /-- The same relationships wait. -/
  relationships : second.relationships = first.relationships

/-- An instance of one element is the same as one of another element but for its name. -/
theorem unnamed_instanceElement (waiting : WaitingInstance) (target twin : Entry) (id : String) :
    (instanceElement waiting twin id).entry.unnamed =
      (instanceElement waiting target id).entry.unnamed := by
  unfold instanceElement Resolved.Element.entry Resolved.Element.kind
  cases waiting.declared.instanceOf <;> rfl

/-- An instance that is given a new word as identifier joins the elements. -/
theorem joins_instanceElement {registry : Registry} (hr : Registered registry (some waiting.host))
    {word : String} (hd : isPath word = false) (hn : registry.get? word = none) (target : Entry) :
    registry.Joins (instanceElement waiting target word).entry :=
  ⟨hn, hd, fun parent hp => hr parent hp⟩

/-- Drafts stay alike when instances of two elements join them. -/
theorem Draft.Alike.addInstance (h : first.Alike draft) (hs : draft.registry.Short)
    (hr : Registered draft.registry (some waiting.host)) {word : String}
    (hd : isPath word = false) (hn : first.registry.get? word = none) {target twin : Entry}
    (ht : target ∈ first.registry.all) (hw : twin ∈ draft.registry.all) :
    ((first.add (instanceElement waiting target word)).await waiting.relationships
      (some word)).Alike
      ((draft.add (instanceElement waiting twin word)).await waiting.relationships
        (some word)) := by
  have hhost : Registered first.registry (some waiting.host) := by
    intro id hid
    obtain ⟨outer, ho⟩ := hr id hid
    obtain ⟨entry, he, -⟩ := h.registry.exists_entry ho
    exact ⟨entry, he⟩
  have hj := joins_instanceElement hhost hd hn target
  refine ⟨h.short.register hj, ?_, ?_⟩
  · exact h.registry.register h.short hs hj
      (joins_instanceElement hr hd (h.registry.fresh hn) twin) ⟨target, ht, rfl⟩ ⟨twin, hw, rfl⟩
      (unnamed_instanceElement waiting target twin word)
  · exact congrArg (· ++ _) h.relationships

/-! ## Registration -/

/-- Whether there is a place is kept when the place is forgotten. -/
theorem isSome_somewhere (position : Option Position) :
    (somewhere position).isSome = position.isSome := Option.isSome_map

/-- Drafts mirror each other whatever has been counted. -/
theorem Draft.Mirrors.count (h : draft.Mirrors mirror) (targets others : List String) :
    Draft.Mirrors { draft with targets } { mirror with targets := others } :=
  ⟨h.short, h.indexed, h.registry, h.context, h.relationships, h.instances⟩

/-- Drafts mirror each other when an instance joins them. -/
theorem Draft.Mirrors.addInstance (h : draft.Mirrors mirror)
    (hw : waiting.Mirrors draft.registry other) {word : String}
    (hd : Registry.isPath word = false) (hn : draft.registry.get? word = none) (target : Entry) :
    mirror.registry.get? word = none ∧
      Follows draft.registry
        ((draft.add (instanceElement waiting target word)).await waiting.relationships (some word))
        (pure ((mirror.add (instanceElement other (target.renamed draft.registry.fullId)
          word)).await other.relationships (some word))) := by
  have hclass : other.declared.unplaced.instanceOf = waiting.declared.unplaced.instanceOf := by
    rw [hw.declared]
  have hkind : (instanceElement other (target.renamed draft.registry.fullId) word).kind =
      (instanceElement waiting target word).kind := by
    unfold instanceElement Resolved.Element.kind
    rw [show other.declared.instanceOf = waiting.declared.instanceOf from hclass]
    cases waiting.declared.instanceOf <;> rfl
  have hkept : (instanceElement waiting target word).entry.kind.isQualified = false := by
    unfold instanceElement Resolved.Element.entry Resolved.Element.kind
    cases waiting.declared.instanceOf <;> rfl
  have hj : draft.registry.Joins (instanceElement waiting target word).entry :=
    ⟨hn, hd, fun parent hp => hw.registered parent hp⟩
  have hentry : (instanceElement other (target.renamed draft.registry.fullId) word).entry =
      { (instanceElement waiting target word).entry with
        parent :=
          (instanceElement waiting target word).entry.parent.map draft.registry.fullId } :=
    Entry.mk.injEq .. ▸ ⟨rfl, rfl, congrArg some hw.host, hkind⟩
  obtain ⟨hfresh, hadd, hself⟩ := h.addKept hj hkept hentry
  have hget : (draft.add (instanceElement waiting target word)).registry.get? word = some _ :=
    (Registry.get?_register ..).trans (if_pos rfl)
  have hawait := hadd.await hw.relationships (registered_of_get? hget)
  rw [Option.map_some, show (draft.add _).registry.fullId word = word from hself] at hawait
  exact ⟨hfresh, follows_pure hawait (Registry.grown_register h.short.indexed hn)⟩

/-- What a reference resolves to in a mirror is what it still stands for. -/
theorem Draft.Mirrors.answers (h : draft.Mirrors mirror) (reference : String)
    (position : Option Position) (wanted : ElementClass) :
    (mirror.registry.resolve reference position true wanted).Answers position
      ((draft.registry.lastingMeaningOf reference wanted).map
        (Entry.renamed · draft.registry.fullId)) := by
  rw [← h.registry.meaningOf h.short h.indexed]
  exact Registry.answers_resolve h.registry.direct reference wanted

/-- An instance that is registered without an error is one of a registered element. -/
theorem registerInstance_of_clean (hp : waiting.declared.position.isSome = true) {word : String}
    (hi : waiting.declared.identifier = some word) (hw : word ≠ "")
    (hc : (registerInstance first waiting).Clean) :
    ∃ target ∈ first.registry.all, first.registry.get? word = none ∧
      (registerInstance first waiting).value =
        (Draft.add { first with targets := first.targets ++ [target.id] }
          (instanceElement waiting target word)).await waiting.relationships (some word) := by
  unfold registerInstance at hc ⊢
  obtain ⟨hr, hc⟩ := Reported.clean_bind.mp hc
  obtain ⟨target, ht⟩ := Registry.resolve_found hp hr
  rw [Reported.bind_value]
  rw [ht] at hc ⊢
  dsimp only at hc ⊢
  simp only [hi, given?_of_word hw, Option.getD_some] at hc ⊢
  have hfree := (free_of_clean hc).1
  rw [if_neg hfree]
  exact ⟨target, (Registry.resolve_mem ht).1, Draft.get?_of_not_isTaken hfree, rfl⟩

/-- An instance is registered under full identifiers where its reference still stands for an
element of its class. -/
theorem follows_registerLasting (h : draft.Mirrors mirror)
    (hw : waiting.Mirrors draft.registry other) {word : String}
    (hi : waiting.declared.identifier = some word) (hne : word ≠ "")
    (hd : isPath word = false) (hn : draft.registry.get? word = none) {target : Entry}
    (ht : draft.registry.lastingMeaningOf waiting.declared.reference
      (instanceTarget waiting.declared.instanceOf) = some target) :
    Follows draft.registry
      ((draft.add (instanceElement waiting target word)).await waiting.relationships (some word))
      (registerInstance mirror other) := by
  obtain ⟨-, hidentifier, hclass, hreference, -⟩ := Declared.Deployed.mk.inj hw.declared
  have hanswers := h.answers waiting.declared.reference other.declared.position
    (instanceTarget waiting.declared.instanceOf)
  rw [ht] at hanswers
  unfold registerInstance
  dsimp only
  rw [show other.declared.reference = waiting.declared.reference from hreference,
    show other.declared.instanceOf = waiting.declared.instanceOf from hclass]
  refine .after (hanswers.clean.mpr fun _ => rfl) ?_
  rw [hanswers.value]
  have hgiven : other.declared.identifier = some word := hidentifier.trans hi
  simp only [Option.map_some, hgiven, given?_of_word hne, Option.getD_some]
  obtain ⟨hfresh, hf⟩ := (h.count draft.targets
    (mirror.targets ++ [(target.renamed draft.registry.fullId).id])).addInstance hw hd hn target
  have hother : ¬Draft.isTaken { mirror with
      targets := mirror.targets ++ [(target.renamed draft.registry.fullId).id] } word = true := by
    rw [Draft.isTaken, hfresh]
    decide
  rw [if_neg hother]
  exact hf

/-- An instance is an error under full identifiers where its reference stands for nothing of its
class any more. -/
theorem not_clean_registerInstance (h : draft.Mirrors mirror)
    (hw : waiting.Mirrors draft.registry other) (hp : waiting.declared.position.isSome = true)
    (hn : draft.registry.lastingMeaningOf waiting.declared.reference
      (instanceTarget waiting.declared.instanceOf) = none) :
    ¬(registerInstance mirror other).Clean := by
  obtain ⟨hposition, -, hclass, hreference, -⟩ := Declared.Deployed.mk.inj hw.declared
  have hanswers := h.answers waiting.declared.reference other.declared.position
    (instanceTarget waiting.declared.instanceOf)
  rw [hn] at hanswers
  unfold registerInstance
  dsimp only
  rw [show other.declared.reference = waiting.declared.reference from hreference,
    show other.declared.instanceOf = waiting.declared.instanceOf from hclass]
  have hplace : other.declared.position.isSome = true := by
    rw [← isSome_somewhere, hposition, isSome_somewhere]
    exact hp
  exact fun hc => Bool.noConfusion (hanswers.clean.mp (Reported.clean_bind.mp hc).1 hplace)

/-- A draft, if there is one, that another one with full identifiers follows, and that differs from
one with short identifiers in the names of instances. Where there is none, there is an error under
full identifiers. -/
def FollowsLasting (registry : Registry) (first : Draft) (next? : Option Draft)
    (other : Reported Draft) : Prop :=
  match next? with
  | some next => first.Alike next ∧ Follows registry next other
  | none => ¬other.Clean

/-- An instance that is registered without an error is followed by one of what its reference still
stands for. -/
theorem followsLasting_registerInstance (ha : first.Alike draft) (h : draft.Mirrors mirror)
    (hw : waiting.Mirrors draft.registry other) (hp : waiting.declared.position.isSome = true)
    (hc : (registerInstance first waiting).Clean) :
    FollowsLasting draft.registry (registerInstance first waiting).value
      (registerLasting draft waiting) (registerInstance mirror other) := by
  obtain ⟨word, hi, hne, hd⟩ := hw.identifier
  obtain ⟨target, ht, hn, hvalue⟩ := registerInstance_of_clean hp hi hne hc
  rw [hvalue]
  unfold registerLasting
  rw [hi]
  cases hm : draft.registry.lastingMeaningOf waiting.declared.reference
      (instanceTarget waiting.declared.instanceOf) with
  | none => exact not_clean_registerInstance h hw hp hm
  | some twin =>
    refine ⟨?_, follows_registerLasting h hw hi hne hd (ha.registry.fresh hn) hm⟩
    have hcounted :
        Draft.Alike { first with targets := first.targets ++ [target.id] } draft :=
      ⟨ha.short, ha.registry, ha.relationships⟩
    exact hcounted.addInstance h.short hw.registered hd hn ht (Registry.lastingMeaningOf_mem hm)

/-- Instances that are registered without an error are followed by those of what their references
still stand for. -/
theorem followsLasting_registerInstances {queue others : List WaitingInstance}
    (ha : first.Alike draft) (h : draft.Mirrors mirror)
    (hw : List.Forall₂ (WaitingInstance.Mirrors draft.registry) queue others)
    (hp : ∀ waiting ∈ queue, waiting.declared.position.isSome = true)
    (hc : (registerInstances first queue).Clean) :
    FollowsLasting draft.registry (registerInstances first queue).value
      (queue.foldlM registerLasting draft) (registerInstances mirror others) := by
  induction queue generalizing first draft mirror others with
  | nil =>
    cases hw
    exact ⟨ha, follows_pure h (.refl _)⟩
  | cons waiting queue ih =>
    cases hw with
    | cons hfirst hrest =>
      rw [registerInstances] at hc ⊢
      rw [registerInstances, List.foldlM_cons, Reported.bind_value]
      obtain ⟨hcf, hcr⟩ := Reported.clean_bind.mp hc
      have hone := followsLasting_registerInstance ha h hfirst (hp waiting List.mem_cons_self) hcf
      cases hl : registerLasting draft waiting with
      | none =>
        rw [hl] at hone
        exact fun hall => hone (Reported.clean_bind.mp hall).1
      | some next =>
        rw [hl] at hone
        obtain ⟨halike, hf⟩ := hone
        have hmore := ih halike hf.mirrors (hrest.imp fun _ _ hm => hm.mono hf.grown)
          (fun later hm => hp later (List.mem_cons_of_mem _ hm)) hcr
        rw [Option.bind_eq_bind, Option.bind_some]
        cases hq : queue.foldlM registerLasting next with
        | none =>
          rw [hq] at hmore
          exact fun hall => hmore (Reported.clean_bind.mp hall).2
        | some last =>
          rw [hq] at hmore
          exact ⟨hmore.1, hf.bind hmore.2⟩

end Build

end Blueprint
