import Blueprint.Proofs.Build.Placed
import Blueprint.Proofs.Declared.Unplaced
import Blueprint.Proofs.Qualified.Register

/-!
# Registration with longer identifiers

The same elements are registered once with the identifiers that they are given and once with full
ones. Where all of them are given identifiers, and the first registration reports no error, the
second one reports none either, and its registry mirrors that of the first. The relationships and
instances that wait are the same, with the full identifiers of the elements around them.
-/

namespace Blueprint

/-- Lists that are the same up to something are the same item by item. -/
theorem forall₂_of_map_eq {α β : Type} {erase : α → β} {items others : List α}
    (h : others.map erase = items.map erase) :
    List.Forall₂ (fun item other => erase other = erase item) items others := by
  induction items generalizing others with
  | nil =>
    rw [List.map_nil, List.map_eq_nil_iff] at h
    rw [h]
    exact .nil
  | cons item items ih =>
    cases others with
    | nil => cases h
    | cons other others =>
      rw [List.map_cons, List.map_cons, List.cons.injEq] at h
      exact .cons h.1 (ih h.2)

/-! ## Identifiers -/

namespace Declared

mutual

/-- What identifiers are given to an element and everything in it has a property. -/
def Element.Given (property : Option String → Prop) : Element → Prop
  | .plain _ details _ members =>
    property details.identifier ∧ Element.AllGiven property members
  | .environment heading _ members =>
    property heading.identifier ∧ Element.AllGiven property members
  | .deployed deployment _ => property deployment.identifier

/-- What identifiers are given to elements and everything in them has a property. -/
def Element.AllGiven (property : Option String → Prop) : List Element → Prop
  | [] => True
  | member :: members => Element.Given property member ∧ Element.AllGiven property members

end

/-- What identifiers are given to the elements of a model has a property. -/
structure Model.Given (property : Option String → Prop) (model : Model) : Prop where
  /-- The identifiers of the members. -/
  members : Element.AllGiven property model.members
  /-- The identifiers of the members of the enterprise. -/
  enterprise : ∀ enterprise, model.enterprise = some enterprise →
    Element.AllGiven property enterprise.members

/-- Elements have identifiers with a property if each of them has. -/
theorem Element.allGiven_iff {property : Option String → Prop} {members : List Element} :
    Element.AllGiven property members ↔ ∀ member ∈ members, member.Given property := by
  induction members with
  | nil => simp [AllGiven]
  | cons member members ih => simp [AllGiven, ih]

/-! ### Deciding -/

mutual

/-- Whether the identifiers of an element have a property. -/
def Element.decideGiven {property : Option String → Prop} (decided : DecidablePred property) :
    (element : Element) → Decidable (element.Given property)
  | .plain _ details _ members =>
    @instDecidableAnd _ _ (decided details.identifier) (Element.decideAllGiven decided members)
  | .environment heading _ members =>
    @instDecidableAnd _ _ (decided heading.identifier) (Element.decideAllGiven decided members)
  | .deployed deployment _ => decided deployment.identifier

/-- Whether the identifiers of elements have a property. -/
def Element.decideAllGiven {property : Option String → Prop} (decided : DecidablePred property) :
    (members : List Element) → Decidable (Element.AllGiven property members)
  | [] => .isTrue trivial
  | member :: members =>
    @instDecidableAnd _ _ (Element.decideGiven decided member)
      (Element.decideAllGiven decided members)

end

instance {property : Option String → Prop} [decided : DecidablePred property]
    {members : List Element} : Decidable (Element.AllGiven property members) :=
  Element.decideAllGiven decided members

end Declared

/-- An identifier is given, and it is a word: neither empty nor a path. -/
def IsWord (identifier : Option String) : Prop :=
  ∃ word, identifier = some word ∧ word ≠ "" ∧ Registry.isPath word = false

namespace Build

open Registry (isPath Grown Joins Mirrors qualify)

variable {draft mirror : Draft} {place twin : Place}

/-- A word counts as an identifier. -/
theorem given?_of_word {word : String} (h : word ≠ "") : given? (some word) = some word := by
  unfold given?
  rw [Option.filter_some, if_pos (decide_eq_true h)]

/-- The identifier of an element that is given a word is that word. -/
theorem localId_of_word {word : String} (h : word ≠ "") (name : String) :
    localId (some word) name = word := by
  unfold localId
  rw [given?_of_word h]
  rfl

/-! ## Drafts -/

/-- An identifier that may be missing is registered. -/
def Registered (registry : Registry) (id? : Option String) : Prop :=
  ∀ id, id? = some id → ∃ entry, registry.get? id = some entry

/-- There is nothing to be registered where there is no identifier. -/
theorem registered_none {registry : Registry} : Registered registry none := nofun

/-- The identifier of an element that is found is registered. -/
theorem registered_of_get? {registry : Registry} {id : String} {entry : Entry}
    (h : registry.get? id = some entry) : Registered registry (some id) := by
  rintro _ ⟨⟩
  exact ⟨entry, h⟩

/-- What is registered stays so when the registry grows. -/
theorem Registered.mono {earlier later : Registry} {id? : Option String}
    (h : Registered earlier id?) (hg : Grown earlier later) : Registered later id? := by
  intro id hid
  obtain ⟨entry, he⟩ := h id hid
  exact ⟨entry, hg.get? id entry he⟩

/-- What is registered has one full identifier when the registry grows. -/
theorem Registered.map_fullId {earlier later : Registry} {id? : Option String}
    (h : Registered earlier id?) (hg : Grown earlier later) :
    id?.map later.fullId = id?.map earlier.fullId := by
  refine Option.map_congr fun id hm => ?_
  obtain ⟨entry, he⟩ := h id hm
  exact hg.fullId id entry he

/-- A waiting relationship is another one with the full identifier of the element around it. -/
structure WaitingRelationship.Mirrors (registry : Registry)
    (waiting mirror : WaitingRelationship) : Prop where
  /-- The same is declared. -/
  declared : mirror.declared.unplaced = waiting.declared.unplaced
  /-- The element around it is registered. -/
  registered : Registered registry waiting.context
  /-- The element around it is the same. -/
  context : mirror.context = waiting.context.map registry.fullId

/-- A waiting instance is another one with the full identifier of its deployment node. -/
structure WaitingInstance.Mirrors (registry : Registry) (waiting mirror : WaitingInstance) :
    Prop where
  /-- The same is declared. -/
  declared : mirror.declared.unplaced = waiting.declared.unplaced
  /-- The same relationships are declared in its body. -/
  relationships : mirror.relationships.map Declared.Relationship.unplaced =
    waiting.relationships.map Declared.Relationship.unplaced
  /-- The deployment node is registered. -/
  registered : Registered registry (some waiting.host)
  /-- The deployment node is the same. -/
  host : mirror.host = registry.fullId waiting.host
  /-- The identifier of the instance is given. -/
  identifier : IsWord waiting.declared.identifier

/-- A draft with full identifiers mirrors one with short ones. -/
structure Draft.Mirrors (draft mirror : Draft) : Prop where
  /-- The identifiers of the one are short. -/
  short : draft.registry.Short
  /-- The tables of the other one agree. -/
  indexed : mirror.registry.Indexed
  /-- The elements are the same. -/
  registry : draft.registry.Mirrors mirror.registry
  /-- There is no context. -/
  context : draft.registry.context = none
  /-- The relationships that wait are the same. -/
  relationships : List.Forall₂ (WaitingRelationship.Mirrors draft.registry)
    draft.relationships mirror.relationships
  /-- The instances that wait are the same. -/
  instances : List.Forall₂ (WaitingInstance.Mirrors draft.registry)
    draft.instances mirror.instances

/-- A waiting relationship is the same when the registry grows. -/
theorem WaitingRelationship.Mirrors.mono {earlier later : Registry}
    {waiting other : WaitingRelationship} (h : waiting.Mirrors earlier other)
    (hg : Grown earlier later) : waiting.Mirrors later other :=
  ⟨h.declared, h.registered.mono hg, h.context.trans (h.registered.map_fullId hg).symm⟩

/-- A waiting instance is the same when the registry grows. -/
theorem WaitingInstance.Mirrors.mono {earlier later : Registry} {waiting other : WaitingInstance}
    (h : waiting.Mirrors earlier other) (hg : Grown earlier later) :
    waiting.Mirrors later other :=
  ⟨h.declared, h.relationships, h.registered.mono hg,
    h.host.trans (Option.some.inj (h.registered.map_fullId hg)).symm, h.identifier⟩

/-- Drafts of nothing mirror each other. -/
theorem Draft.mirrors_empty : Draft.Mirrors {} {} where
  short := by
    refine ⟨Registry.indexed_empty, Registry.complete_empty, fun _ => rfl, ?_, ?_, ?_, ?_⟩
    all_goals nofun
  indexed := Registry.indexed_empty
  registry := ⟨rfl, fun _ => rfl, nofun, fun _ => rfl, rfl⟩
  context := rfl
  relationships := .nil
  instances := .nil

/-- Drafts mirror each other when an element joins them. -/
theorem Draft.Mirrors.add (h : draft.Mirrors mirror) {element : Resolved.Element}
    (hj : draft.registry.Joins element.entry) {other : Draft}
    (hr : other.registry = mirror.registry.registerQualified draft.registry element.entry)
    (hw : other.relationships = mirror.relationships) (hi : other.instances = mirror.instances) :
    (draft.add element).Mirrors other := by
  have hgrown := Registry.grown_register h.short.indexed hj.fresh
  refine ⟨h.short.register hj, ?_, ?_, ?_, ?_, ?_⟩
  · rw [hr]
    exact h.indexed.registerQualified draft.registry element.entry
  · rw [hr]
    exact h.registry.register h.short h.indexed hj
  · exact (Registry.context_register ..).trans h.context
  · rw [hw]
    exact h.relationships.imp fun _ _ hm => hm.mono hgrown
  · rw [hi]
    exact h.instances.imp fun _ _ hm => hm.mono hgrown

/-- Drafts mirror each other when the same relationships wait. -/
theorem Draft.Mirrors.await (h : draft.Mirrors mirror)
    {relationships others : List Declared.Relationship}
    (hu : others.map Declared.Relationship.unplaced =
      relationships.map Declared.Relationship.unplaced)
    {context : Option String} (hc : Registered draft.registry context) :
    (draft.await relationships context).Mirrors
      (mirror.await others (context.map draft.registry.fullId)) := by
  refine ⟨h.short, h.indexed, h.registry, h.context, ?_, h.instances⟩
  refine List.rel_append h.relationships ?_
  rw [List.forall₂_map_left_iff, List.forall₂_map_right_iff]
  exact (forall₂_of_map_eq hu).imp fun _ _ hd => ⟨hd, hc, rfl⟩

/-! ## Places -/

/-- A place where identifiers are hierarchical is the same as one where they are not. -/
structure Place.Mirrors (registry : Registry) (place twin : Place) : Prop where
  /-- Identifiers are short at the one place. -/
  flat : place.hierarchical = false
  /-- They are full at the other one. -/
  hierarchical : twin.hierarchical = true
  /-- The element around the place is registered. -/
  registered : Registered registry place.parent
  /-- It is the same. -/
  parent : twin.parent = place.parent.map registry.fullId
  /-- The deployment environment has the same name. -/
  environment : twin.environment = place.environment
  /-- The deployment node around the place is registered. -/
  hosted : Registered registry place.host
  /-- It is the same. -/
  host : twin.host = place.host.map registry.fullId

namespace Place.Mirrors

variable {registry : Registry}

/-- A place outside of all elements is the same in both. -/
theorem outside (registry : Registry) :
    Place.Mirrors registry { hierarchical := false } { hierarchical := true } :=
  ⟨rfl, rfl, nofun, rfl, rfl, nofun, rfl⟩

/-- A place is the same when the registry grows. -/
theorem mono {later : Registry} (h : Place.Mirrors registry place twin)
    (hg : Grown registry later) : Place.Mirrors later place twin where
  flat := h.flat
  hierarchical := h.hierarchical
  registered := h.registered.mono hg
  parent := h.parent.trans (h.registered.map_fullId hg).symm
  environment := h.environment
  hosted := h.hosted.mono hg
  host := h.host.trans (h.hosted.map_fullId hg).symm

/-- Inside of a registered element the place is the same. -/
theorem inside (h : Place.Mirrors registry place twin) (sort : Declared.PlainSort) {id : String}
    {entry : Entry} (hg : registry.get? id = some entry) :
    Place.Mirrors registry (place.inside sort id) (twin.inside sort (registry.fullId id)) := by
  have hr := registered_of_get? hg
  cases sort with
  | group =>
    exact ⟨h.flat, h.hierarchical, h.registered, h.parent, h.environment, nofun, rfl⟩
  | deploymentNode technology instances =>
    exact ⟨h.flat, h.hierarchical, hr, rfl, h.environment, hr, rfl⟩
  | _ => exact ⟨h.flat, h.hierarchical, hr, rfl, h.environment, nofun, rfl⟩

/-- Inside of a registered deployment environment the place is the same. -/
theorem insideEnvironment (h : Place.Mirrors registry place twin) {id : String} (name : String)
    {entry : Entry} (hg : registry.get? id = some entry) :
    Place.Mirrors registry (place.insideEnvironment id name)
      (twin.insideEnvironment (registry.fullId id) name) := by
  have hr := registered_of_get? hg
  exact ⟨h.flat, h.hierarchical, hr, rfl, rfl, nofun, rfl⟩

/-- The identifier at the one place is the short one. -/
theorem fullId_flat (h : Place.Mirrors registry place twin) (id : String) :
    place.fullId id = id := by
  unfold Place.fullId
  rw [h.flat]
  cases place.parent <;> rfl

/-- The identifier of a plain element at the other place is the full one. -/
theorem fullId_qualify (h : Place.Mirrors registry place twin) (sort : Declared.PlainSort)
    (details : Declared.Details) (id : String) :
    twin.fullId id = qualify registry.fullId (place.element sort details id).entry := by
  have hkind : (place.element sort details id).entry.kind.isQualified = true := by
    cases sort <;> rfl
  have hparent : (place.element sort details id).entry.parent = place.parent := rfl
  unfold Place.fullId qualify
  rw [h.hierarchical, h.parent, hkind, hparent]
  cases place.parent <;> rfl

end Place.Mirrors

/-! ## Registration -/

section Registration

variable {sort : Declared.PlainSort} {details others : Declared.Details}
  {relationships mentions : List Declared.Relationship} {word : String}

/-- An element that is given a new word as identifier joins at its place. -/
theorem Place.Mirrors.joins (hp : Place.Mirrors draft.registry place twin)
    (hd : Registry.isPath word = false) (hn : draft.registry.get? word = none)
    {element : Resolved.Element} (hi : element.id = word)
    (hparent : element.parent = place.parent) :
    draft.registry.Joins element.entry where
  fresh := by
    show draft.registry.get? element.id = none
    rw [hi]
    exact hn
  undotted := by
    show Registry.isPath element.id = false
    rw [hi]
    exact hd
  parent := by
    show ∀ parent, element.parent = some parent → _
    rw [hparent]
    exact hp.registered

/-- An element with a short identifier needs no alias. -/
theorem addPlain_flat (hp : Place.Mirrors draft.registry place twin)
    (hi : details.identifier = some word) (hw : word ≠ "") :
    draft.addPlain place sort details relationships =
      (draft.add (place.element sort details word)).await relationships (some word) := by
  unfold Draft.addPlain
  rw [hi]
  dsimp only
  rw [localId_of_word hw, hp.fullId_flat, if_neg (not_not_intro rfl)]

/-- An element with a full identifier has the short one as an alias, if that is another one. -/
theorem addPlain_qualified (mirror : Draft) (twin : Place) (sort : Declared.PlainSort)
    (mentions : List Declared.Relationship) (hi : others.identifier = some word)
    (hw : word ≠ "") :
    ∃ next : Draft,
      mirror.addPlain twin sort others mentions =
        next.await mentions (some (twin.fullId word)) ∧
      next.registry =
        (if twin.fullId word = word then
          mirror.registry.register (twin.element sort others (twin.fullId word)).entry
        else
          (mirror.registry.register
            (twin.element sort others (twin.fullId word)).entry).registerAlias word
              (twin.fullId word)) ∧
      next.relationships = mirror.relationships ∧ next.instances = mirror.instances := by
  unfold Draft.addPlain
  rw [hi]
  dsimp only
  rw [localId_of_word hw]
  by_cases he : twin.fullId word = word
  · rw [if_neg (not_not_intro he), if_pos he]
    exact ⟨_, rfl, rfl, rfl, rfl⟩
  · rw [if_pos he, if_neg he]
    exact ⟨_, rfl, rfl, rfl, rfl⟩

/-- The registry with a plain element at a place where identifiers are short. -/
theorem registry_addPlain_flat (hp : Place.Mirrors draft.registry place twin)
    (hi : details.identifier = some word) (hw : word ≠ "") :
    (draft.addPlain place sort details relationships).registry =
      draft.registry.register (place.element sort details word).entry := by
  rw [addPlain_flat hp hi hw]
  rfl

/-- Drafts mirror each other when a plain element joins them. -/
theorem Draft.Mirrors.addPlain (h : draft.Mirrors mirror)
    (hp : Place.Mirrors draft.registry place twin) (hi : details.identifier = some word)
    (hw : word ≠ "") (hd : Registry.isPath word = false) (hn : draft.registry.get? word = none)
    (hu : others.unplaced = details.unplaced)
    (hr : mentions.map Declared.Relationship.unplaced =
      relationships.map Declared.Relationship.unplaced) :
    (draft.addPlain place sort details relationships).Mirrors
      (mirror.addPlain twin sort others mentions) := by
  have hj : draft.registry.Joins (place.element sort details word).entry :=
    hp.joins hd hn rfl rfl
  have hgiven : others.unplaced.identifier = details.unplaced.identifier := by rw [hu]
  have hother : others.identifier = some word := hgiven.trans hi
  have hname : others.unplaced.name = details.unplaced.name := by rw [hu]
  have hfull : twin.fullId word =
      qualify draft.registry.fullId (place.element sort details word).entry :=
    hp.fullId_qualify sort details word
  have hentry : (twin.element sort others (twin.fullId word)).entry =
      draft.registry.qualified (place.element sort details word).entry := by
    have hkind : (twin.sortOf sort).kind = (place.sortOf sort).kind := by cases sort <;> rfl
    refine Entry.mk.injEq .. ▸ ⟨hfull, hname, hp.parent, hkind⟩
  obtain ⟨next, heq, hreg, hrel, hins⟩ := addPlain_qualified mirror twin sort mentions hother hw
  have hadd : (draft.add (place.element sort details word)).Mirrors next := by
    refine h.add hj ?_ hrel hins
    rw [hreg, hentry, hfull]
    rfl
  have hself : (draft.add (place.element sort details word)).registry.fullId word =
      twin.fullId word := by
    rw [hfull]
    exact (Registry.fullId_register h.short.indexed hj.fresh word).trans (if_pos rfl)
  rw [addPlain_flat hp hi hw, heq, ← hself]
  exact hadd.await hr (registered_of_get? ((Registry.get?_register ..).trans (if_pos rfl)))

/-- Behind a plain element that joins drafts, its members stand at the same place. -/
theorem Draft.Mirrors.insidePlain (h : draft.Mirrors mirror)
    (hp : Place.Mirrors draft.registry place twin) (hi : details.identifier = some word)
    (hw : word ≠ "") (hd : Registry.isPath word = false) (hn : draft.registry.get? word = none) :
    Grown draft.registry (draft.addPlain place sort details relationships).registry ∧
      Place.Mirrors (draft.addPlain place sort details relationships).registry
        (place.inside sort word) (twin.inside sort (twin.fullId word)) := by
  have hj : draft.registry.Joins (place.element sort details word).entry :=
    hp.joins hd hn rfl rfl
  have hgrown := Registry.grown_register h.short.indexed hj.fresh
  have hself : (draft.registry.register (place.element sort details word).entry).fullId word =
      twin.fullId word := by
    rw [hp.fullId_qualify sort details word]
    exact (Registry.fullId_register h.short.indexed hj.fresh word).trans (if_pos rfl)
  rw [registry_addPlain_flat hp hi hw, ← hself]
  exact ⟨hgrown, (hp.mono hgrown).inside sort ((Registry.get?_register ..).trans (if_pos rfl))⟩

/-- The full identifier of an element is its own, if its class has no longer ones. -/
theorem qualify_of_kept {entry : Entry} (h : entry.kind.isQualified = false)
    (rename : String → String) : qualify rename entry = entry.id := by
  unfold qualify
  rw [h]
  cases entry.parent <;> rfl

/-- Drafts mirror each other when an element joins them whose class has no longer identifiers: it
has the same one in both. -/
theorem Draft.Mirrors.addKept (h : draft.Mirrors mirror) {element other : Resolved.Element}
    (hj : draft.registry.Joins element.entry) (hk : element.entry.kind.isQualified = false)
    (ho : other.entry =
      { element.entry with parent := element.entry.parent.map draft.registry.fullId }) :
    mirror.registry.get? element.id = none ∧ (draft.add element).Mirrors (mirror.add other) ∧
      (draft.add element).registry.fullId element.id = element.id := by
  have hqualify := qualify_of_kept hk draft.registry.fullId
  have hentry : other.entry = draft.registry.qualified element.entry := by
    rw [ho]
    unfold Registry.qualified
    rw [hqualify]
  refine ⟨?_, h.add hj ?_ rfl rfl, ?_⟩
  · have hfresh := h.registry.fresh h.short hj
    rwa [hqualify] at hfresh
  · show mirror.registry.register other.entry = _
    unfold Registry.registerQualified
    rw [if_pos hqualify, hentry]
  · have hself := Registry.fullId_register h.short.indexed hj.fresh element.id
    exact hself.trans ((if_pos rfl).trans hqualify)

/-- The element that a deployment environment makes at a place. -/
def Place.environmentElement (place : Place) (id name : String) : Resolved.Element :=
  { id, name, parent := place.parent, sort := .deploymentEnvironment }

/-- Drafts mirror each other when a deployment environment joins them, and its members stand at the
same place. -/
theorem Draft.Mirrors.addEnvironment (h : draft.Mirrors mirror)
    (hp : Place.Mirrors draft.registry place twin) (hd : Registry.isPath word = false)
    (hn : draft.registry.get? word = none) (name : String) :
    mirror.registry.get? word = none ∧
      (draft.add (place.environmentElement word name)).Mirrors
        (mirror.add (twin.environmentElement word name)) ∧
      (draft.add (place.environmentElement word name)).registry.fullId word = word ∧
      Grown draft.registry (draft.add (place.environmentElement word name)).registry ∧
      Place.Mirrors (draft.add (place.environmentElement word name)).registry
        (place.insideEnvironment word name) (twin.insideEnvironment word name) := by
  have hj : draft.registry.Joins (place.environmentElement word name).entry :=
    hp.joins hd hn rfl rfl
  have hother : (twin.environmentElement word name).entry =
      { (place.environmentElement word name).entry with
        parent := (place.environmentElement word name).entry.parent.map draft.registry.fullId } :=
    congrArg (Entry.mk word name · .deploymentEnvironment) hp.parent
  obtain ⟨hfresh, hadd, hself⟩ := h.addKept hj rfl hother
  have hgrown := Registry.grown_register h.short.indexed hj.fresh
  have hget : (draft.add (place.environmentElement word name)).registry.get? word = some _ :=
    (Registry.get?_register ..).trans (if_pos rfl)
  have hin := (hp.mono hgrown).insideEnvironment name hget
  rw [show (draft.registry.register (place.environmentElement word name).entry).fullId word = word
    from hself] at hin
  exact ⟨hfresh, hadd, hself, hgrown, hin⟩

end Registration

/-- A draft that another one with full identifiers follows: without an error, and as its mirror. -/
structure Follows (registry : Registry) (next : Draft) (other : Reported Draft) : Prop where
  /-- There is no error. -/
  clean : other.Clean
  /-- The drafts mirror each other. -/
  mirrors : next.Mirrors other.value
  /-- The registry has grown. -/
  grown : Grown registry next.registry

/-- A draft that is another one's mirror follows it. -/
theorem follows_pure (h : draft.Mirrors mirror) {registry : Registry}
    (hg : Grown registry draft.registry) : Follows registry draft (pure mirror) :=
  ⟨fun _ hm => absurd hm List.not_mem_nil, h, hg⟩

/-- What is done next follows too. -/
theorem Follows.bind {registry : Registry} {first : Reported Draft} {next : Draft}
    {last : Draft → Reported Draft} (h : Follows registry draft first)
    (hl : Follows draft.registry next (last first.value)) :
    Follows registry next (first >>= last) :=
  ⟨Reported.clean_bind.mpr ⟨h.clean, hl.clean⟩, hl.mirrors, h.grown.trans hl.grown⟩

/-- What is done before without an error changes nothing. -/
theorem Follows.after {α : Type} {registry : Registry} {first : Reported α} {next : Draft}
    {last : α → Reported Draft} (hc : first.Clean) (h : Follows registry next (last first.value)) :
    Follows registry next (first >>= last) :=
  ⟨Reported.clean_bind.mpr ⟨hc, h.clean⟩, h.mirrors, h.grown⟩

/-- Relationships that wait afterwards follow too. -/
theorem Follows.await {registry : Registry} {first : Reported Draft} {next : Draft}
    (h : Follows registry next first) {relationships mentions : List Declared.Relationship}
    (hu : mentions.map Declared.Relationship.unplaced =
      relationships.map Declared.Relationship.unplaced)
    {context other : Option String} (hr : Registered next.registry context)
    (hc : other = context.map next.registry.fullId) :
    Follows registry (next.await relationships context)
      (first >>= fun draft => pure (draft.await mentions other)) :=
  h.bind (follows_pure (hc ▸ h.mirrors.await hu hr) (.refl _))

/-- An instance in a deployment node waits in both drafts. -/
theorem follows_deployed {draft mirror : Draft} {place twin : Place}
    (h : draft.Mirrors mirror) (hp : Place.Mirrors draft.registry place twin)
    {deployment other : Declared.Deployed} {relationships mentions : List Declared.Relationship}
    (hd : other.unplaced = deployment.unplaced)
    (hu : mentions.map Declared.Relationship.unplaced =
      relationships.map Declared.Relationship.unplaced)
    (hi : IsWord deployment.identifier) :
    Follows draft.registry (registerElement place draft (.deployed deployment relationships)).value
      (registerElement twin mirror (.deployed other mentions)) := by
  rw [registerElement, registerElement, hp.host]
  cases hh : place.host with
  | none => exact follows_pure h (.refl _)
  | some host =>
    have hwaits : WaitingInstance.Mirrors draft.registry
        ⟨deployment, relationships, host, place.environment⟩
        ⟨other, mentions, draft.registry.fullId host, twin.environment⟩ :=
      ⟨hd, hu, hh ▸ hp.hosted, rfl, hi⟩
    exact ⟨fun _ hm => absurd hm List.not_mem_nil,
      ⟨h.short, h.indexed, h.registry, h.context, h.relationships,
        List.rel_append h.instances (.cons hwaits .nil)⟩, .refl _⟩

mutual

/-- An element that is registered without an error is followed by itself with its full
identifier. -/
theorem follows_registerElement {draft mirror : Draft} {place twin : Place}
    (h : draft.Mirrors mirror) (hp : Place.Mirrors draft.registry place twin) :
    ∀ element other : Declared.Element, other.unplaced = element.unplaced →
      element.Given IsWord → (registerElement place draft element).Clean →
      Follows draft.registry (registerElement place draft element).value
        (registerElement twin mirror other)
  | .plain sort details relationships members, .plain other others mentions parts => by
    intro hu ⟨⟨word, hi, hw, hd⟩, hm⟩ hc
    obtain ⟨rfl, hdetails, hrelationships, hmembers⟩ := Declared.Element.plain.inj hu
    have hgiven : others.unplaced.identifier = details.unplaced.identifier := by rw [hdetails]
    have hother : others.identifier = some word := hgiven.trans hi
    rw [registerElement, hi, localId_of_word hw, hp.fullId_flat] at hc ⊢
    rw [registerElement, hother, localId_of_word hw]
    obtain ⟨ht, hc⟩ := free_of_clean hc
    rw [if_neg ht]
    have hn := Draft.get?_of_not_isTaken ht
    have hj : draft.registry.Joins (place.element other details word).entry :=
      hp.joins hd hn rfl rfl
    have hfresh : mirror.isTaken (twin.fullId word) ≠ true := by
      rw [Draft.isTaken, hp.fullId_qualify other details word, h.registry.fresh h.short hj]
      decide
    rw [if_neg hfresh]
    obtain ⟨hgrown, hin⟩ := h.insidePlain hp hi hw hd hn
    have hmembers := follows_registerMembers (h.addPlain hp hi hw hd hn hdetails hrelationships)
      hin members parts hmembers hm hc
    exact ⟨hmembers.clean, hmembers.mirrors, hgrown.trans hmembers.grown⟩
  | .environment heading relationships members, .environment other mentions parts => by
    intro hu ⟨⟨word, hi, hw, hd⟩, hm⟩ hc
    obtain ⟨hheading, hrelationships, hmembers⟩ := Declared.Element.environment.inj hu
    have hgiven : other.unplaced.identifier = heading.unplaced.identifier := by rw [hheading]
    have hother : other.identifier = some word := hgiven.trans hi
    have hname : other.unplaced.name = heading.unplaced.name := by rw [hheading]
    rw [registerElement, hi, localId_of_word hw] at hc ⊢
    rw [registerElement, hother, localId_of_word hw]
    dsimp only at hc ⊢
    obtain ⟨ht, hc⟩ := free_of_clean hc
    rw [if_neg ht]
    have hn := Draft.get?_of_not_isTaken ht
    obtain ⟨hfresh, hadd, hself, hgrown, hin⟩ := h.addEnvironment hp hd hn heading.name
    rw [if_neg (by rw [Draft.isTaken, hfresh]; decide), show other.name = heading.name from hname]
    have hf := follows_registerMembers hadd hin members parts hmembers hm
      (Reported.clean_bind.mp hc).1
    have hword : (draft.add (place.environmentElement word heading.name)).registry.get? word =
        some (place.environmentElement word heading.name).entry :=
      (Registry.get?_register ..).trans (if_pos rfl)
    have hafter := hf.await hrelationships
      (registered_of_get? (hf.grown.get? word _ hword))
      (congrArg some ((hf.grown.fullId word _ hword).trans hself)).symm
    exact ⟨hafter.clean, hafter.mirrors, hgrown.trans hafter.grown⟩
  | .deployed deployment relationships, .deployed other mentions => by
    intro hu hi _
    obtain ⟨hdeployed, hrelationships⟩ := Declared.Element.deployed.inj hu
    exact follows_deployed h hp hdeployed hrelationships hi
  | .plain _ _ _ _, .environment _ _ _ => nofun
  | .plain _ _ _ _, .deployed _ _ => nofun
  | .environment _ _ _, .plain _ _ _ _ => nofun
  | .environment _ _ _, .deployed _ _ => nofun
  | .deployed _ _, .plain _ _ _ _ => nofun
  | .deployed _ _, .environment _ _ _ => nofun

/-- Elements that are registered without an error are followed by themselves with their full
identifiers. -/
theorem follows_registerMembers {draft mirror : Draft} {place twin : Place}
    (h : draft.Mirrors mirror) (hp : Place.Mirrors draft.registry place twin) :
    ∀ members others : List Declared.Element,
      Declared.Element.unplacedOfList others = Declared.Element.unplacedOfList members →
      Declared.Element.AllGiven IsWord members →
      (registerMembers place draft members).Clean →
      Follows draft.registry (registerMembers place draft members).value
        (registerMembers twin mirror others)
  | [], [] => fun _ _ _ => by
    rw [registerMembers, registerMembers]
    exact follows_pure h (.refl _)
  | member :: members, other :: others => by
    intro hu ⟨hfirst, hrest⟩ hc
    obtain ⟨hmember, hmembers⟩ := List.cons.inj hu
    rw [registerMembers] at hc ⊢
    rw [registerMembers]
    obtain ⟨hcf, hcr⟩ := Reported.clean_bind.mp hc
    have hf := follows_registerElement h hp member other hmember hfirst hcf
    exact hf.bind (follows_registerMembers hf.mirrors (hp.mono hf.grown) members others hmembers
      hrest hcr)
  | [], _ :: _ => nofun
  | _ :: _, [] => nofun

end

/-! ## Models -/

/-- Elements of some rank are the same up to places if all elements are. -/
theorem unplacedOfList_filter_rank {elements others : List Declared.Element}
    (h : Declared.Element.unplacedOfList others = Declared.Element.unplacedOfList elements)
    (ranked : Nat → Bool) :
    Declared.Element.unplacedOfList (others.filter fun other => ranked other.rankInModel) =
      Declared.Element.unplacedOfList
        (elements.filter fun element => ranked element.rankInModel) := by
  have hf : ∀ members : List Declared.Element,
      Declared.Element.unplacedOfList (members.filter fun member => ranked member.rankInModel) =
        (Declared.Element.unplacedOfList members).filter fun member =>
          ranked member.rankInModel := by
    intro members
    rw [Declared.Element.unplacedOfList_eq, Declared.Element.unplacedOfList_eq, List.filter_map]
    congr 2
    funext member
    rw [Function.comp_apply, Declared.Element.rankInModel_unplaced]
  rw [hf, hf, h]

/-- The elements of an enterprise that are registered without an error are followed by themselves
with their full identifiers. -/
theorem follows_registerEnterprise (h : draft.Mirrors mirror)
    {enterprise other : Option Declared.Enterprise}
    (hu : other.map Declared.Enterprise.unplaced = enterprise.map Declared.Enterprise.unplaced)
    (hg : ∀ declared, enterprise = some declared →
      Declared.Element.AllGiven IsWord declared.members)
    (hc : (registerEnterprise { hierarchical := false } draft enterprise).Clean) :
    Follows draft.registry (registerEnterprise { hierarchical := false } draft enterprise).value
      (registerEnterprise { hierarchical := true } mirror other) := by
  cases enterprise with
  | none =>
    cases other with
    | none => exact follows_pure h (.refl _)
    | some twin => cases hu
  | some declared =>
    cases other with
    | none => cases hu
    | some twin =>
      have hunplaced := Option.some.inj hu
      have hmembers : twin.unplaced.members = declared.unplaced.members := by rw [hunplaced]
      have hrelationships : twin.unplaced.relationships = declared.unplaced.relationships := by
        rw [hunplaced]
      have hf := follows_registerMembers h (.outside _) declared.members twin.members hmembers
        (hg declared rfl) (Reported.clean_bind.mp hc).1
      exact hf.await hrelationships nofun rfl

/-- The elements of a model that are registered without an error are followed by themselves with
their full identifiers. -/
theorem follows_registerModel {model other : Declared.Model}
    (hu : other.unplaced = model.unplaced) (hg : model.Given IsWord)
    (hc : (registerModel false {} model).Clean) :
    Follows .empty (registerModel false {} model).value (registerModel true {} other) := by
  have hmembers : other.unplaced.members = model.unplaced.members := by rw [hu]
  have henterprise : other.unplaced.enterprise = model.unplaced.enterprise := by rw [hu]
  have hrelationships : other.unplaced.relationships = model.unplaced.relationships := by rw [hu]
  have hgiven : ∀ ranked : Declared.Element → Bool,
      Declared.Element.AllGiven IsWord (model.members.filter ranked) := fun ranked =>
    Declared.Element.allGiven_iff.mpr fun member hm =>
      Declared.Element.allGiven_iff.mp hg.members member (List.mem_filter.mp hm).1
  unfold registerModel at hc ⊢
  obtain ⟨hcElements, hc⟩ := Reported.clean_bind.mp hc
  obtain ⟨hcEnterprise, hc⟩ := Reported.clean_bind.mp hc
  have helements := follows_registerMembers Draft.mirrors_empty (.outside _) model.elements
    other.elements (unplacedOfList_filter_rank hmembers fun rank => decide (rank ≠ 4)) (hgiven _)
    hcElements
  have hinside := follows_registerEnterprise helements.mirrors henterprise hg.enterprise
    hcEnterprise
  have henvironments := follows_registerMembers hinside.mirrors (.outside _) model.environments
    other.environments (unplacedOfList_filter_rank hmembers fun rank => decide (rank = 4))
    (hgiven _) (Reported.clean_bind.mp hc).1
  exact helements.bind (hinside.bind (henvironments.await hrelationships nofun rfl))

end Build

end Blueprint
