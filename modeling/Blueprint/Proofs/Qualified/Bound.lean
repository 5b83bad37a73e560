import Blueprint.Proofs.Qualified.Instance

/-!
# Bindings with longer identifiers around them

What is bound to the elements of a registry without an error is bound to those of its mirror without
an error exactly if the paths in it still stand for elements of the right classes. Words need not be
asked for: they stand for the same elements in both. The registry that is mirrored may differ from
the one that is bound to in the names of instances.
-/

namespace Blueprint

/-- A reference that is looked up with an element around it, and the classes of which one is
wanted. -/
structure Lookup where
  /-- The identifier of the element around the reference. -/
  context : Option String := none
  /-- The reference. -/
  reference : String
  /-- The classes. -/
  wanted : List ElementClass := [.element]
  deriving DecidableEq, Repr

/-- A meaning is an element of one of some classes. -/
def Suits (meaning : Option Entry) (wanted : List ElementClass) : Prop :=
  ∃ entry, meaning = some entry ∧ ∃ kind ∈ wanted, entry.kind.isA kind = true

instance {meaning : Option Entry} {wanted : List ElementClass} :
    Decidable (Suits meaning wanted) :=
  inferInstanceAs (Decidable (∃ entry ∈ meaning, ∃ kind ∈ wanted, entry.kind.isA kind = true))

/-- A reference that is a path still stands for an element of a wanted class where identifiers are
hierarchical. -/
def Registry.Lasts (registry : Registry) (lookup : Lookup) : Prop :=
  isPath lookup.reference = true →
    Suits ((registry.withContext lookup.context).lastingMeaning lookup.reference) lookup.wanted

instance {registry : Registry} {lookup : Lookup} : Decidable (registry.Lasts lookup) :=
  inferInstanceAs (Decidable (_ → _))

/-- An element suits whatever else is changed but its class. -/
theorem suits_map {meaning : Option Entry} {wanted : List ElementClass} {change : Entry → Entry}
    (h : ∀ entry, (change entry).kind = entry.kind) :
    Suits (meaning.map change) wanted ↔ Suits meaning wanted := by
  unfold Suits
  constructor
  · rintro ⟨_, he, kind, hm, hk⟩
    obtain ⟨entry, hentry, rfl⟩ := Option.map_eq_some_iff.mp he
    exact ⟨entry, hentry, kind, hm, h entry ▸ hk⟩
  · rintro ⟨entry, rfl, kind, hm, hk⟩
    exact ⟨_, rfl, kind, hm, (h entry).symm ▸ hk⟩

/-- A word stands for an element that suits in two registries that are alike if it does in one. -/
theorem Registry.Alike.suits {first second : Registry} (h : Alike first second)
    (hf : first.Short) (hs : second.Short) {word : String} (hw : isPath word = false)
    {wanted : List ElementClass} (hm : Suits (first.meaning word) wanted) :
    Suits (second.meaning word) wanted := by
  have hkind : ∀ entry : Entry, entry.unnamed.kind = entry.kind := fun _ => rfl
  unfold meaning at hm ⊢
  rw [hw, if_neg Bool.false_ne_true] at hm ⊢
  rw [← suits_map hkind, h.wordMeaning hf hs, suits_map hkind]
  exact hm

namespace Build

open Registry (Mirrors Alike Lasts)

variable {α β : Type} {plain registry mirror : Registry} {asked more : List Lookup}
  {same : α → α → Prop} {alike : β → β → Prop}

/-- What is computed without an error is computed without an error in the mirror of a registry
exactly if some references last in that; and then the values are the same in some way. -/
structure Keeps (registry : Registry) (asked : List Lookup) (same : α → α → Prop)
    (first second : Reported α) : Prop where
  /-- There is no error exactly if the references last. -/
  clean : first.Clean → (second.Clean ↔ ∀ lookup ∈ asked, registry.Lasts lookup)
  /-- The values are the same. -/
  value : first.Clean → second.Clean → same first.value second.value

/-- Values are there, whatever they are. -/
def Whatever (_ _ : α) : Prop := True

/-- Values that are the same are kept. -/
theorem keeps_pure {value other : α} (h : same value other) :
    Keeps registry [] same (pure value) (pure other) :=
  ⟨fun _ => iff_of_true (fun _ hm => absurd hm List.not_mem_nil) fun _ hm =>
    absurd hm List.not_mem_nil, fun _ _ => h⟩

/-- One computation after the other keeps what both keep. -/
theorem Keeps.bind {first second : Reported α} {next follow : α → Reported β}
    (h : Keeps registry asked same first second)
    (hn : same first.value second.value →
      Keeps registry more alike (next first.value) (follow second.value)) :
    Keeps registry (asked ++ more) alike (first >>= next) (second >>= follow) := by
  constructor
  · intro hc
    obtain ⟨hf, hr⟩ := Reported.clean_bind.mp hc
    rw [Reported.clean_bind, List.forall_mem_append, ← h.clean hf]
    exact and_congr_right fun hs => (hn (h.value hf hs)).clean hr
  · intro hc hs
    obtain ⟨hf, hr⟩ := Reported.clean_bind.mp hc
    obtain ⟨hs, hl⟩ := Reported.clean_bind.mp hs
    exact (hn (h.value hf hs)).value hr hl

/-- A report is kept wherever it is. -/
theorem keeps_report (issue : Issue) (position place : Option Position) :
    Keeps registry [] Whatever (.report issue position) (.report issue place) := by
  refine ⟨fun hc => iff_of_true ?_ fun _ hm => absurd hm List.not_mem_nil, fun _ _ => trivial⟩
  have herror : issue.severity.isError = false := hc (.of issue position) List.mem_cons_self
  intro diagnostic hm
  rw [List.mem_singleton.mp hm]
  exact herror

/-- A computation that reports an error keeps anything. -/
theorem keeps_of_not_clean {first second : Reported α} (h : ¬first.Clean) :
    Keeps registry asked same first second :=
  ⟨fun hc => absurd hc h, fun hc => absurd hc h⟩

/-! ## References -/

/-- There are two values. -/
def BothFound (first second : Option α) : Prop := first.isSome = true ∧ second.isSome = true

/-- Two values that are there. -/
theorem BothFound.exists {first second : Option α} (h : BothFound first second) :
    ∃ value other, first = some value ∧ second = some other := by
  obtain ⟨value, hv⟩ := Option.isSome_iff_exists.mp h.1
  obtain ⟨other, ho⟩ := Option.isSome_iff_exists.mp h.2
  exact ⟨value, other, hv, ho⟩

/-- A registry, one that differs from it in the names of instances, and the mirror of that. -/
structure Reflected (plain registry mirror : Registry) : Prop where
  /-- The identifiers of the first one are short. -/
  origin : plain.Short
  /-- The second one differs from it in names only. -/
  alike : plain.Alike registry
  /-- The identifiers of the second one are short. -/
  short : registry.Short
  /-- The tables of the last one agree. -/
  indexed : mirror.Indexed
  /-- It has the elements of the second one. -/
  mirrors : registry.Mirrors mirror
  /-- There is no context. -/
  context : registry.context = none

/-- Without a context a registry and its mirror are those without one. -/
theorem Reflected.withContext_none (h : Reflected plain registry mirror) :
    plain.withContext none = plain ∧ mirror.withContext none = mirror := by
  have hp : plain.context = none := h.alike.context.symm.trans h.context
  have hc : mirror.context = none := by
    rw [h.mirrors.context, h.context]
    rfl
  refine ⟨?_, ?_⟩
  · unfold Registry.withContext
    rw [← hp]
  · unfold Registry.withContext
    rw [← hc]

/-- What is registered in the one is registered in the other. -/
theorem Reflected.registered (h : Reflected plain registry mirror) {id? : Option String}
    (hr : Registered registry id?) : Registered plain id? := by
  intro id hid
  obtain ⟨other, ho⟩ := hr id hid
  obtain ⟨entry, he, -⟩ := h.alike.exists_entry ho
  exact ⟨entry, he⟩

/-- Looking up is kept exactly if the reference lasts, where it is an error exactly if no element
suits. -/
theorem keeps_lookup (h : Reflected plain registry mirror) {lookup : Lookup}
    (hr : Registered registry lookup.context) {first second : Resolution}
    (hf : first.Clean ↔
      Suits ((plain.withContext lookup.context).meaning lookup.reference) lookup.wanted)
    (hs : second.Clean ↔
      Suits ((mirror.withContext (lookup.context.map registry.fullId)).meaning lookup.reference)
        lookup.wanted)
    (hfound : first.Clean → first.value.isSome = true)
    (hother : second.Clean → second.value.isSome = true) :
    Keeps registry [lookup] BothFound first second := by
  refine ⟨fun hc => ?_, fun hc hd => ⟨hfound hc, hother hd⟩⟩
  have hmirrors := h.mirrors.withContext lookup.context
  have hindexed : (mirror.withContext (lookup.context.map registry.fullId)).Indexed :=
    ⟨h.indexed.keyed, h.indexed.names, h.indexed.children, h.indexed.classes⟩
  have hkind : ∀ entry : Entry,
      (entry.renamed (registry.withContext lookup.context).fullId).kind = entry.kind := fun _ => rfl
  rw [hs, hmirrors.meaning (h.short.withContext hr) hindexed, suits_map hkind,
    List.forall_mem_singleton]
  unfold Lasts
  cases hp : Registry.isPath lookup.reference with
  | true => exact ⟨fun hl _ => hl, fun hl => hl rfl⟩
  | false =>
    rw [Registry.lastingMeaning_word _ hp]
    exact iff_of_true ((h.alike.withContext lookup.context).suits
      (h.origin.withContext (h.registered hr)) (h.short.withContext hr) hp (hf.mp hc)) nofun

/-- A reference to an element of a class is an error exactly if no element suits. -/
theorem clean_resolve_iff (hd : registry.Direct) {position : Option Position}
    (hp : position.isSome = true) (reference : String) (wanted : ElementClass) :
    (registry.resolve reference position true wanted).Clean ↔
      Suits (registry.meaning reference) [wanted] := by
  have hanswers : (registry.resolve reference position true wanted).Answers position _ :=
    Registry.answers_resolve hd reference wanted
  rw [hanswers.clean, forall_prop_of_true hp]
  unfold Registry.meaningOf Suits
  rw [Option.isSome_iff_exists]
  constructor
  · rintro ⟨entry, he⟩
    obtain ⟨hm, hk⟩ := Option.filter_eq_some_iff.mp he
    exact ⟨entry, hm, wanted, List.mem_singleton_self _, hk⟩
  · rintro ⟨entry, hm, kind, hk, ha⟩
    exact ⟨entry, Option.filter_eq_some_iff.mpr ⟨hm, List.mem_singleton.mp hk ▸ ha⟩⟩

/-- A reference with a position is kept if it lasts. -/
theorem keeps_resolve (h : Reflected plain registry mirror) {position place : Option Position}
    (hp : position.isSome = true) (hs : place.isSome = true) {context : Option String}
    (hr : Registered registry context) (reference : String) (wanted : ElementClass) :
    Keeps registry [⟨context, reference, [wanted]⟩] BothFound
      ((plain.withContext context).resolve reference position true wanted)
      ((mirror.withContext (context.map registry.fullId)).resolve reference place true wanted) :=
  keeps_lookup h hr
    (clean_resolve_iff (h.origin.withContext (h.registered hr)).direct hp reference wanted)
    (clean_resolve_iff (h.mirrors.withContext context).direct hs reference wanted)
    (fun hc => Option.isSome_iff_exists.mpr (Registry.resolve_found hp hc))
    fun hc => Option.isSome_iff_exists.mpr (Registry.resolve_found hs hc)

/-- Without a context a reference with a position is kept if it lasts. -/
theorem keeps_reference (h : Reflected plain registry mirror) {position place : Option Position}
    (hp : position.isSome = true) (hs : place.isSome = true) (reference : String)
    (wanted : ElementClass := .element) :
    Keeps registry [⟨none, reference, [wanted]⟩] BothFound
      (plain.resolve reference position true wanted)
      (mirror.resolve reference place true wanted) := by
  obtain ⟨hfirst, hsecond⟩ := h.withContext_none
  have hkeeps := keeps_resolve h hp hs registered_none reference wanted
  rwa [hfirst, Option.map_none, hsecond] at hkeeps

/-! ## Relationships -/

/-- What a relationship looks up: its ends, with the element around it. -/
def WaitingRelationship.lookups (waiting : WaitingRelationship) : List Lookup :=
  [{ context := waiting.context, reference := waiting.declared.source },
    { context := waiting.context, reference := waiting.declared.destination }]

/-- A relationship is kept if its ends last. -/
theorem keeps_resolveRelationship (h : Reflected plain registry mirror)
    {waiting other : WaitingRelationship} (hw : waiting.Mirrors registry other)
    (hp : waiting.declared.position.isSome = true) {known found : List Resolved.Relationship}
    (hk : found.map Resolved.Relationship.id = known.map Resolved.Relationship.id) :
    Keeps registry waiting.lookups
      (fun value other => other.map Resolved.Relationship.id = value.map Resolved.Relationship.id)
      (resolveRelationship plain known waiting) (resolveRelationship mirror found other) := by
  obtain ⟨declared, context⟩ := waiting
  obtain ⟨twin, around⟩ := other
  obtain ⟨hposition, hsource, hdestination, hidentifier, -⟩ :=
    Declared.Relationship.mk.inj hw.declared
  dsimp only at hposition hsource hdestination hidentifier hp
  obtain rfl : around = context.map registry.fullId := hw.context
  have hs : twin.position.isSome = true := by
    rw [← isSome_somewhere, hposition, isSome_somewhere]
    exact hp
  unfold resolveRelationship
  dsimp only
  rw [hsource, hdestination, hidentifier, hk]
  show Keeps registry ([_] ++ ([_] ++ [])) _ _ _
  refine (keeps_resolve h hp hs hw.registered declared.source .element).bind fun hsources =>
    (keeps_resolve h hp hs hw.registered declared.destination .element).bind fun htargets => ?_
  obtain ⟨source, origin, hsource, horigin⟩ := hsources.exists
  obtain ⟨target, goal, htarget, hgoal⟩ := htargets.exists
  rw [hsource, horigin, htarget, hgoal]
  dsimp only
  cases given? declared.identifier with
  | none =>
    refine keeps_pure (congrArg some ?_)
    show nextRelationshipId found = nextRelationshipId known
    unfold nextRelationshipId
    rw [hk]
  | some identifier =>
    dsimp only
    split
    · exact keeps_of_not_clean fun hc =>
        Reported.not_clean_report rfl (Reported.clean_bind.mp hc).1
    · exact keeps_pure rfl

/-- Relationships are kept if their ends last. -/
theorem keeps_resolveRelationships (h : Reflected plain registry mirror)
    {queue others : List WaitingRelationship}
    (hw : List.Forall₂ (WaitingRelationship.Mirrors registry) queue others)
    (hp : ∀ waiting ∈ queue, waiting.declared.position.isSome = true)
    {known found : List Resolved.Relationship}
    (hk : found.map Resolved.Relationship.id = known.map Resolved.Relationship.id) :
    Keeps registry (queue.flatMap WaitingRelationship.lookups) Whatever
      (resolveRelationships plain known queue) (resolveRelationships mirror found others) := by
  induction hw generalizing known found with
  | nil => exact keeps_pure trivial
  | cons hfirst hrest ih =>
    rw [List.flatMap_cons, resolveRelationships, resolveRelationships]
    refine (keeps_resolveRelationship h hfirst (hp _ List.mem_cons_self) hk).bind fun hsame =>
      ih (fun waiting hm => hp waiting (List.mem_cons_of_mem _ hm)) ?_
    rw [List.map_append, List.map_append, hk, ← Option.toList_map, ← Option.toList_map, hsame]

end Build

end Blueprint
