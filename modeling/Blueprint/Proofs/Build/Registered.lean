import Blueprint.Build.Draft
import Blueprint.Proofs.Registry.Lookup

/-!
# Registered elements

The elements of a draft have distinct identifiers and come after their parents, and the registry of
a draft holds exactly them. Registering an element, its members or a waiting instance keeps this,
whatever is declared: what cannot be registered is left out with everything in it.
-/

namespace Blueprint.Resolved

/-- Every element comes after its parent. -/
def ParentsFirst (elements : List Element) : Prop :=
  ∀ before element after, elements = before ++ element :: after →
    ∀ parent, element.parent = some parent → parent ∈ before.map Element.id

/-- An identifier is that of an element of a class. -/
def Names (elements : List Element) (id : String) (kind : ElementClass) : Prop :=
  ∃ element ∈ elements, element.id = id ∧ element.kind = kind

/-- What an instance is an instance of is an element of its class. -/
def Element.HasTarget (elements : List Element) (element : Element) : Prop :=
  match element.sort with
  | .softwareSystemInstance system _ _ => Names elements system .softwareSystem
  | .containerInstance container _ _ => Names elements container .container
  | _ => True

/-- Nothing comes before its parent where nothing is. -/
theorem parentsFirst_nil : ParentsFirst [] := by
  intro before element after h
  cases before <;> cases h

/-- One more element whose parent is there keeps parents in front. -/
theorem ParentsFirst.concat {elements : List Element} {element : Element}
    (h : ParentsFirst elements)
    (hp : ∀ parent, element.parent = some parent → parent ∈ elements.map Element.id) :
    ParentsFirst (elements ++ [element]) := by
  intro before middle after he parent hm
  rcases List.eq_nil_or_concat after with rfl | ⟨front, last, rfl⟩
  · obtain ⟨hb, hc⟩ := List.append_inj' he rfl
    cases hc
    rw [← hb]
    exact hp parent hm
  · rw [List.concat_eq_append, ← List.cons_append, ← List.append_assoc] at he
    obtain ⟨hb, _⟩ := List.append_inj' he rfl
    exact h before middle front hb parent hm

/-- A class of an element stays when more elements come. -/
theorem Names.append {elements : List Element} {id : String} {kind : ElementClass}
    (h : Names elements id kind) (more : List Element) : Names (elements ++ more) id kind := by
  obtain ⟨element, hm, he⟩ := h
  exact ⟨element, List.mem_append_left _ hm, he⟩

/-- An instance keeps its target when more elements come. -/
theorem Element.HasTarget.append {elements : List Element} {element : Element}
    (h : element.HasTarget elements) (more : List Element) :
    element.HasTarget (elements ++ more) := by
  unfold HasTarget at h ⊢
  split
  · rename_i hs
    rw [hs] at h
    exact h.append more
  · rename_i hs
    rw [hs] at h
    exact h.append more
  · trivial

end Blueprint.Resolved

namespace Blueprint.Build

open Resolved (ParentsFirst Names)

namespace Draft

/-- The identifiers of the elements in the order of their registration. -/
def ids (draft : Draft) : List String := draft.elements.map Resolved.Element.id

/-- The registry and the elements of a draft agree, and every reference among the elements is to
an element that is there. -/
structure Sound (draft : Draft) : Prop where
  /-- The registry holds the elements under their identifiers. -/
  entries : draft.registry.elements.entries =
    draft.elements.map fun element => (element.id, element.entry)
  /-- Elements come after their parents. -/
  parents : ParentsFirst draft.elements
  /-- What instances are instances of is there. -/
  targets : ∀ element ∈ draft.elements, element.HasTarget draft.elements
  /-- The deployment nodes of waiting instances are there. -/
  hosts : ∀ waiting ∈ draft.instances, waiting.host ∈ draft.ids

variable {draft : Draft}

/-- The draft of nothing is sound. -/
theorem sound_empty : Sound {} where
  entries := rfl
  parents := Resolved.parentsFirst_nil
  targets := by intro element h; cases h
  hosts := by intro waiting h; cases h

/-- The registry has the identifiers of the elements as keys. -/
theorem Sound.keys (h : draft.Sound) : draft.registry.elements.keys = draft.ids := by
  simp only [OrderedMap.keys, h.entries, List.map_map, ids]
  rfl

/-- No two elements have one identifier. -/
theorem Sound.ids_nodup (h : draft.Sound) : draft.ids.Nodup := by
  rw [← h.keys]
  exact draft.registry.elements.keys_nodup

/-- What the registry knows are the entries of the elements. -/
theorem Sound.all (h : draft.Sound) :
    draft.registry.all = draft.elements.map Resolved.Element.entry := by
  simp only [Registry.all, OrderedMap.values, h.entries, List.map_map]
  rfl

/-- What is found in the registry stands for an element of its class. -/
theorem Sound.names_of_mem (h : draft.Sound) {entry : Entry} (hm : entry ∈ draft.registry.all) :
    Names draft.elements entry.id entry.kind := by
  rw [h.all] at hm
  obtain ⟨element, he, rfl⟩ := List.mem_map.mp hm
  exact ⟨element, he, rfl, rfl⟩

/-- What a reference resolves to is an element of the wanted class. -/
theorem Sound.names_of_resolve (h : draft.Sound) {reference : String}
    {position : Option Position} {byName : Bool} {wanted : ElementClass} {entry : Entry}
    (hr : (draft.registry.resolve reference position byName wanted).value = some entry) :
    Names draft.elements entry.id entry.kind ∧ entry.kind.isA wanted = true :=
  ⟨h.names_of_mem (Registry.resolve_mem hr).1, (Registry.resolve_mem hr).2⟩

/-- An identifier that is not taken is new to the registry. -/
theorem get?_of_not_isTaken {id : String} (h : ¬draft.isTaken id = true) :
    draft.registry.get? id = none := by
  simpa [isTaken] using h

/-- Soundness looks at the registered elements and the waiting instances only. -/
theorem Sound.of_eq {other : Draft} (h : draft.Sound)
    (hr : other.registry.elements = draft.registry.elements)
    (he : other.elements = draft.elements) (hi : other.instances = draft.instances) :
    other.Sound where
  entries := by rw [hr, he, h.entries]
  parents := he ▸ h.parents
  targets := he ▸ h.targets
  hosts := by
    rw [hi]
    simpa only [ids, he] using h.hosts

/-- The identifier of an element that joins the draft is there. -/
theorem mem_ids_add (draft : Draft) (element : Resolved.Element) :
    element.id ∈ (draft.add element).ids := by
  simp [ids, Draft.add]

/-- An element with a new identifier, whose parent and target are there, joins a sound draft. -/
theorem Sound.add (h : draft.Sound) (element : Resolved.Element)
    (hn : draft.registry.get? element.id = none)
    (hp : ∀ parent, element.parent = some parent → parent ∈ draft.ids)
    (ht : element.HasTarget draft.elements) : (draft.add element).Sound where
  entries := by
    have he : (draft.registry.register element.entry).elements.entries =
        draft.registry.elements.entries ++ [(element.id, element.entry)] :=
      Registry.entries_register hn
    simp only [Draft.add, he, h.entries, List.map_append, List.map_cons, List.map_nil]
  parents := h.parents.concat hp
  targets := by
    intro other hm
    rcases List.mem_append.mp hm with hm | hm
    · exact (h.targets other hm).append _
    · rw [List.mem_singleton.mp hm]
      exact ht.append _
  hosts := by
    intro waiting hm
    simp only [ids, Draft.add, List.map_append]
    exact List.mem_append_left _ (h.hosts waiting hm)

/-! ## Waiting relationships -/

/-- Waiting relationships change no element. -/
@[simp] theorem elements_await (draft : Draft) (relationships : List Declared.Relationship)
    (context : Option String) : (draft.await relationships context).elements = draft.elements :=
  rfl

/-- Waiting relationships keep a draft sound. -/
theorem Sound.await (h : draft.Sound) (relationships : List Declared.Relationship)
    (context : Option String) : (draft.await relationships context).Sound :=
  h.of_eq rfl rfl rfl

end Draft

/-! ## Declared elements -/

/-- The elements that a place refers to are there. -/
structure Place.Known (place : Place) (draft : Draft) : Prop where
  /-- The element around the place. -/
  parent : ∀ id, place.parent = some id → id ∈ draft.ids
  /-- The deployment node in whose body the place is. -/
  host : ∀ id, place.host = some id → id ∈ draft.ids

namespace Place

variable {place : Place} {draft : Draft}

/-- A place outside of all elements refers to none. -/
theorem known_outside (hierarchical : Bool) : Known { hierarchical } draft where
  parent := by intro id h; cases h
  host := by intro id h; cases h

/-- What is there stays there when more elements come. -/
theorem Known.mono {later : Draft} (h : place.Known draft)
    (he : draft.elements <+: later.elements) : place.Known later where
  parent := fun id hp => (he.map Resolved.Element.id).subset (h.parent id hp)
  host := fun id hh => (he.map Resolved.Element.id).subset (h.host id hh)

/-- Inside an element that is there, the place refers to elements that are there. -/
theorem Known.inside (h : place.Known draft) {sort : Declared.PlainSort} {id : String}
    (hi : id ∈ draft.ids) : (place.inside sort id).Known draft := by
  unfold Place.inside
  split
  · exact ⟨h.parent, by intro id h; cases h⟩
  · exact ⟨by rintro _ ⟨⟩; exact hi, by rintro _ ⟨⟩; exact hi⟩
  · exact ⟨by rintro _ ⟨⟩; exact hi, by intro id h; cases h⟩

/-- Inside a deployment environment that is there, the place refers to it. -/
theorem known_insideEnvironment (place : Place) {id : String} (name : String)
    (hi : id ∈ draft.ids) :
    (place.insideEnvironment id name).Known draft :=
  ⟨by rintro _ ⟨⟩; exact hi, by intro id h; cases h⟩

/-- Plain elements are instances of nothing. -/
theorem hasTarget_element (sort : Declared.PlainSort) (details : Declared.Details) (id : String)
    (elements : List Resolved.Element) :
    (place.element sort details id).HasTarget elements := by
  cases sort <;> exact trivial

end Place

namespace Draft

variable (draft : Draft) (place : Place) (sort : Declared.PlainSort)
  (details : Declared.Details) (relationships : List Declared.Relationship)

/-- A plain element comes after the elements that are there. -/
theorem elements_addPlain :
    (draft.addPlain place sort details relationships).elements =
      draft.elements ++ [place.element sort details
        (place.fullId (localId details.identifier details.name))] := by
  unfold addPlain
  dsimp only
  repeat' split
  all_goals rfl

/-- The identifier of a plain element is there. -/
theorem mem_ids_addPlain :
    place.fullId (localId details.identifier details.name) ∈
      (draft.addPlain place sort details relationships).ids := by
  rw [ids, elements_addPlain, List.map_append]
  exact List.mem_append_right _ List.mem_cons_self

/-- A plain element waits for nothing. -/
theorem instances_addPlain :
    (draft.addPlain place sort details relationships).instances = draft.instances := by
  unfold addPlain
  dsimp only
  repeat' split
  all_goals rfl

/-- An alias beside a plain element changes no registered element. -/
theorem registry_addPlain :
    (draft.addPlain place sort details relationships).registry.elements =
      (draft.add (place.element sort details
        (place.fullId (localId details.identifier details.name)))).registry.elements := by
  unfold addPlain
  dsimp only
  repeat' split
  all_goals rfl

variable {draft place}

/-- A plain element with a new identifier joins a sound draft. -/
theorem Sound.addPlain (h : draft.Sound) (hk : place.Known draft)
    (hn : draft.registry.get? (place.fullId (localId details.identifier details.name)) = none) :
    (draft.addPlain place sort details relationships).Sound := by
  have hs := h.add (place.element sort details _) hn hk.parent
    (Place.hasTarget_element sort details _ _)
  exact hs.of_eq (registry_addPlain ..) (elements_addPlain ..) (instances_addPlain ..)

end Draft

open Draft in
mutual

/-- Registering an element keeps a draft sound and puts elements behind those that are there. -/
theorem registerElement_sound {place : Place} {draft : Draft} (h : draft.Sound)
    (hk : place.Known draft) : ∀ element : Declared.Element,
    (registerElement place draft element).value.Sound ∧
      draft.elements <+: (registerElement place draft element).value.elements
  | .plain sort details relationships members => by
    rw [registerElement]
    split
    · exact ⟨h, List.prefix_rfl⟩
    · rename_i ht
      have hn := get?_of_not_isTaken ht
      have hs := h.addPlain sort details relationships hk hn
      have he : draft.elements <+:
          (draft.addPlain place sort details relationships).elements :=
        ⟨_, (elements_addPlain ..).symm⟩
      have hi := mem_ids_addPlain draft place sort details relationships
      obtain ⟨hm, hp⟩ := registerMembers_sound hs ((hk.mono he).inside hi) members
      exact ⟨hm, he.trans hp⟩
  | .environment heading relationships members => by
    rw [registerElement]
    dsimp only
    split
    · exact ⟨h, List.prefix_rfl⟩
    · rename_i ht
      have hn := get?_of_not_isTaken ht
      rw [Reported.bind_value, Reported.pure_value]
      have hs := h.add
        { id := localId heading.identifier heading.name, name := heading.name,
          parent := place.parent, sort := .deploymentEnvironment } hn hk.parent trivial
      obtain ⟨hm, hp⟩ := registerMembers_sound hs
        (Place.known_insideEnvironment place heading.name (mem_ids_add draft _)) members
      exact ⟨hm.await _ _, (List.prefix_append _ _).trans hp⟩
  | .deployed deployment relationships => by
    rw [registerElement]
    split
    · rename_i host hh
      refine ⟨⟨h.entries, h.parents, h.targets, ?_⟩, List.prefix_rfl⟩
      intro waiting hm
      rcases List.mem_append.mp hm with hm | hm
      · exact h.hosts waiting hm
      · rw [List.mem_singleton.mp hm]
        exact hk.host host hh
    · exact ⟨h, List.prefix_rfl⟩

/-- Registering elements one after the other keeps a draft sound. -/
theorem registerMembers_sound {place : Place} {draft : Draft} (h : draft.Sound)
    (hk : place.Known draft) : ∀ members : List Declared.Element,
    (registerMembers place draft members).value.Sound ∧
      draft.elements <+: (registerMembers place draft members).value.elements
  | [] => by
    rw [registerMembers]
    exact ⟨h, List.prefix_rfl⟩
  | member :: members => by
    rw [registerMembers, Reported.bind_value]
    obtain ⟨hs, hp⟩ := registerElement_sound h hk member
    obtain ⟨ht, hq⟩ := registerMembers_sound hs (hk.mono hp) members
    exact ⟨ht, hp.trans hq⟩

end

/-- Registering the elements of an enterprise keeps a draft sound. -/
theorem registerEnterprise_sound (hierarchical : Bool) {draft : Draft} (h : draft.Sound)
    (enterprise : Option Declared.Enterprise) :
    (registerEnterprise { hierarchical } draft enterprise).value.Sound := by
  unfold registerEnterprise
  split
  · exact (registerMembers_sound h (Place.known_outside hierarchical) _).1.await _ _
  · exact h

/-- Registering the elements of a model keeps a draft sound. -/
theorem registerModel_sound (hierarchical : Bool) {draft : Draft} (h : draft.Sound)
    (model : Declared.Model) : (registerModel hierarchical draft model).value.Sound := by
  unfold registerModel
  simp only [Reported.bind_value, Reported.pure_value]
  have hs := (registerMembers_sound h (Place.known_outside hierarchical) model.elements).1
  have he := registerEnterprise_sound hierarchical hs model.enterprise
  exact (registerMembers_sound he (Place.known_outside hierarchical)
    model.environments).1.await _ _

/-! ## Instances -/

/-- The element of an instance whose target was resolved has that target. -/
theorem hasTarget_instanceElement {draft : Draft} (h : draft.Sound) {waiting : WaitingInstance}
    {target : Entry} (id : String)
    (hr : (draft.registry.resolve waiting.declared.reference waiting.declared.position true
      (instanceTarget waiting.declared.instanceOf)).value = some target) :
    (instanceElement waiting target id).HasTarget draft.elements := by
  obtain ⟨hn, hk⟩ := h.names_of_resolve hr
  unfold instanceElement Resolved.Element.HasTarget
  cases ho : waiting.declared.instanceOf <;>
    · simp only [ho, instanceTarget, ElementClass.isA, Bool.or_eq_true, beq_iff_eq,
        reduceCtorEq, false_or] at hk
      rw [hk] at hn
      exact hn

/-- Registering an instance keeps a draft sound, and puts no element in front of others. -/
theorem registerInstance_sound {draft : Draft} (h : draft.Sound) {waiting : WaitingInstance}
    (hw : waiting.host ∈ draft.ids) :
    (registerInstance draft waiting).value.Sound ∧
      draft.elements <+: (registerInstance draft waiting).value.elements := by
  unfold registerInstance
  rw [Reported.bind_value]
  split
  · exact ⟨h, List.prefix_rfl⟩
  · rename_i target hr
    dsimp only
    split
    · exact ⟨h.of_eq rfl rfl rfl, List.prefix_rfl⟩
    · rename_i ht
      have hn := Draft.get?_of_not_isTaken ht
      have ho : Draft.Sound { draft with targets := draft.targets ++ [target.id] } :=
        h.of_eq rfl rfl rfl
      have hs := ho.add (instanceElement waiting target _) hn
        (by rintro _ ⟨⟩; exact hw) (hasTarget_instanceElement h _ hr)
      exact ⟨hs.await _ _, List.prefix_append _ _⟩

/-- Registering instances one after the other keeps a draft sound. -/
theorem registerInstances_sound {draft : Draft} (h : draft.Sound)
    {queue : List WaitingInstance} (hq : ∀ waiting ∈ queue, waiting.host ∈ draft.ids) :
    (registerInstances draft queue).value.Sound := by
  induction queue generalizing draft with
  | nil =>
    rw [registerInstances]
    exact h
  | cons waiting queue ih =>
    rw [registerInstances, Reported.bind_value]
    obtain ⟨hs, hp⟩ := registerInstance_sound h (hq waiting List.mem_cons_self)
    refine ih hs fun later hl => ?_
    exact (hp.map Resolved.Element.id).subset (hq later (List.mem_cons_of_mem _ hl))

end Blueprint.Build
