import Blueprint.Proofs.Build.Placed
import Blueprint.Proofs.Build.Related

/-!
# Relationships in the order of their declarations

Where no error is reported, every declared relationship makes one relationship, in the order in
which they wait, with what its declaration says and between the elements that its references are
bound to. A relationship that starts at `this` starts at the element around it. Implied
relationships are added behind and marked, so nothing that is declared is lost among them.
-/

namespace Blueprint

/-- A reference at a place is bound to the element of a class with an identifier. -/
def Registry.Binds (registry : Registry) (position : Option Position) (reference id : String)
    (wanted : ElementClass := .element) : Prop :=
  ∃ entry, (registry.resolve reference position true wanted).value = some entry ∧ id = entry.id

/-- A reference with a position that is resolved without an error is bound. -/
theorem Registry.binds_of_clean {registry : Registry} {spots : Position → Prop}
    {position : Option Position} (hp : Marked spots position) {reference : String}
    {wanted : ElementClass} (hc : (registry.resolve reference position true wanted).Clean) :
    ∃ entry, (registry.resolve reference position true wanted).value = some entry ∧
      registry.Binds position reference entry.id wanted := by
  obtain ⟨place, rfl, _⟩ := hp
  obtain ⟨entry, he⟩ := Registry.resolve_found rfl hc
  exact ⟨entry, he, entry, he, rfl⟩

namespace Build

open Resolved (IsAt Model Relationship)
open Declared (Traversal Mention)

variable {spots : Position → Prop}

/-- What is registered under an identifier has it. -/
theorem Draft.Sound.id_of_get? {draft : Draft} (h : draft.Sound) {id : String} {entry : Entry}
    (hg : draft.registry.get? id = some entry) : entry.id = id := by
  have hm := OrderedMap.mem_entries_of_get? hg
  rw [h.entries] at hm
  obtain ⟨element, _, he⟩ := List.mem_map.mp hm
  cases he
  rfl

/-- The reference `this` is bound to the context. -/
theorem context_of_binds_this {draft : Draft} (h : draft.Sound) {context : Option String}
    {position : Option Position} {id : String}
    (hb : (draft.registry.withContext context).Binds position "this" id) : context = some id := by
  obtain ⟨entry, he, rfl⟩ := hb
  cases context with
  | none =>
    rw [Registry.resolve_this_outside] at he
    cases he
  | some outer => rw [h.id_of_get? (Registry.resolve_this he)]

/-! ## Declared relationships -/

/-- A relationship is what a declaration says. -/
structure Draws (registry : Registry) (elements : List Resolved.Element)
    (relationship : Relationship) (mention : Mention) : Prop where
  /-- It is declared. -/
  declared : relationship.implied = false
  /-- An identifier that is given is kept. -/
  identifier : ∀ id, given? mention.relationship.identifier = some id → relationship.id = id
  /-- The description is kept. -/
  description : relationship.description = mention.relationship.description
  /-- The technology is kept. -/
  technology : relationship.technology = mention.relationship.technology
  /-- The tags are kept. -/
  tags : relationship.tags = mention.relationship.tags
  /-- The properties are kept. -/
  properties : relationship.properties = mention.relationship.properties
  /-- The address is kept. -/
  url : relationship.url = mention.relationship.url
  /-- The ends are what the references are bound to in the body of the element around it. -/
  ends : ∃ context, IsAt elements mention.outer context ∧
    (registry.withContext context).Binds mention.relationship.position
      mention.relationship.source relationship.source ∧
    (registry.withContext context).Binds mention.relationship.position
      mention.relationship.destination relationship.destination

/-- A relationship that starts at `this` starts at the element around it. -/
theorem Draws.source_this {draft : Draft} (h : draft.Sound) {relationship : Relationship}
    {mention : Mention} (hd : Draws draft.registry draft.elements relationship mention)
    (ht : mention.relationship.source = "this") :
    IsAt draft.elements mention.outer (some relationship.source) := by
  obtain ⟨context, hc, hs, _⟩ := hd.ends
  rw [ht] at hs
  rw [← context_of_binds_this h hs]
  exact hc

/-- The relationship that a declaration makes is what the declaration says. -/
theorem draws_makeRelationship {registry : Registry} {elements : List Resolved.Element}
    {waiting : WaitingRelationship} {mention : Mention}
    (hw : Waits spots elements waiting mention) {source destination : Entry}
    (hs : (registry.withContext waiting.context).Binds waiting.declared.position
      waiting.declared.source source.id)
    (hd : (registry.withContext waiting.context).Binds waiting.declared.position
      waiting.declared.destination destination.id) {id : String}
    (hi : ∀ given, given? waiting.declared.identifier = some given → id = given) :
    Draws registry elements (makeRelationship waiting.declared source destination id) mention := by
  have he := hw.declared
  rw [he] at hs hd hi
  rw [he]
  exact ⟨rfl, hi, rfl, rfl, rfl, rfl, rfl, waiting.context, hw.context, hs, hd⟩

/-- A relationship that is resolved without an error is there. -/
theorem resolveRelationship_draws {registry : Registry} {known : List Relationship}
    {elements : List Resolved.Element} {waiting : WaitingRelationship} {mention : Mention}
    (hw : Waits spots elements waiting mention)
    (hc : (resolveRelationship registry known waiting).Clean) :
    ∃ relationship, (resolveRelationship registry known waiting).value = some relationship ∧
      Draws registry elements relationship mention := by
  unfold resolveRelationship at hc ⊢
  dsimp only at hc ⊢
  obtain ⟨hsource, hc⟩ := Reported.clean_bind.mp hc
  obtain ⟨hdestination, hc⟩ := Reported.clean_bind.mp hc
  obtain ⟨source, hs, hsb⟩ := Registry.binds_of_clean hw.position hsource
  obtain ⟨destination, hd, hdb⟩ := Registry.binds_of_clean hw.position hdestination
  rw [Reported.bind_value, Reported.bind_value, hs, hd]
  rw [hs, hd] at hc
  cases hi : given? waiting.declared.identifier with
  | some identifier =>
    rw [hi] at hc
    dsimp only at hc ⊢
    split at hc
    · exact absurd (Reported.clean_bind.mp hc).1 (Reported.not_clean_report rfl)
    · rename_i hn
      rw [if_neg hn]
      refine ⟨_, rfl, draws_makeRelationship hw hsb hdb ?_⟩
      intro given hg
      rw [hi] at hg
      exact Option.some.inj hg
  | none =>
    refine ⟨_, rfl, draws_makeRelationship hw hsb hdb ?_⟩
    intro given hg
    rw [hi] at hg
    cases hg

/-- Relationships that are resolved without an error are there one after the other. -/
theorem resolveRelationships_draws {registry : Registry} {known : List Relationship}
    {elements : List Resolved.Element} {queue : List WaitingRelationship}
    {mentions : List Mention} (hq : List.Forall₂ (Waits spots elements) queue mentions)
    (hc : (resolveRelationships registry known queue).Clean) :
    ∃ more, (resolveRelationships registry known queue).value = known ++ more ∧
      List.Forall₂ (Draws registry elements) more mentions := by
  induction hq generalizing known with
  | nil => exact ⟨[], (List.append_nil _).symm, .nil⟩
  | cons hw hq ih =>
    rw [resolveRelationships] at hc ⊢
    rw [Reported.bind_value]
    obtain ⟨hfirst, hrest⟩ := Reported.clean_bind.mp hc
    obtain ⟨relationship, hr, hd⟩ := resolveRelationship_draws hw hfirst
    obtain ⟨more, hm, hall⟩ := ih hrest
    refine ⟨relationship :: more, ?_, .cons hd hall⟩
    rw [hm, hr, Option.toList_some, List.append_assoc, List.singleton_append]

/-! ## Implied relationships -/

/-- The relationships that are declared and not implied. -/
def declaredOf (relationships : List Relationship) : List Relationship :=
  relationships.filter fun relationship => !relationship.implied

/-- One implied relationship leaves those that are declared. -/
theorem declaredOf_addImplied (declared : Relationship) (model : Model) (ends : String × String) :
    declaredOf (addImplied declared model ends).relationships =
      declaredOf model.relationships := by
  unfold addImplied
  split
  · rfl
  · unfold declaredOf
    rw [List.filter_append]
    exact List.append_nil _

/-- Implied relationships leave those that are declared. -/
theorem declaredOf_addAllImplied (model : Model) :
    declaredOf (addAllImplied model).relationships = declaredOf model.relationships := by
  unfold addAllImplied
  refine List.foldlRecOn (motive := fun extended : Model =>
    declaredOf extended.relationships = declaredOf model.relationships) _ _ rfl ?_
  intro extended he declared _
  refine List.foldlRecOn (motive := fun extended : Model =>
    declaredOf extended.relationships = declaredOf model.relationships) _ _ he ?_
  intro between hb ends _
  rw [declaredOf_addImplied]
  exact hb

/-- Implied relationships leave the name of the enterprise. -/
theorem enterprise_addAllImplied (model : Model) :
    (addAllImplied model).enterprise = model.enterprise := by
  unfold addAllImplied
  refine List.foldlRecOn (motive := fun extended : Model =>
    extended.enterprise = model.enterprise) _ _ rfl ?_
  intro extended he declared _
  refine List.foldlRecOn (motive := fun extended : Model =>
    extended.enterprise = model.enterprise) _ _ he ?_
  intro between hb ends _
  unfold addImplied
  split <;> exact hb

/-- Where all relationships are declared, none is left out as implied. -/
theorem declaredOf_eq_self {registry : Registry} {elements : List Resolved.Element}
    {relationships : List Relationship} {mentions : List Mention}
    (h : List.Forall₂ (Draws registry elements) relationships mentions) :
    declaredOf relationships = relationships := by
  induction h with
  | nil => rfl
  | cons hd _ ih =>
    unfold declaredOf at ih ⊢
    rw [List.filter_cons_of_pos (by rw [hd.declared]; rfl), ih]

/-- The model that is built has the name of the enterprise. -/
theorem enterprise_buildModel (declared : Declared.Workspace) (draft : Draft) (implied : Bool) :
    (buildModel declared draft implied).value.enterprise =
      declared.model.bind fun model => model.enterprise.map Declared.Enterprise.name := by
  unfold buildModel
  rw [Reported.bind_value, Reported.pure_value]
  split
  · rw [enterprise_addAllImplied]
  · rfl

/-- The model that is built without an error has a relationship for each that is declared. -/
theorem buildModel_draws {declared : Declared.Workspace} {draft : Draft} {implied : Bool}
    {traversal : Traversal} (hr : Registers spots draft traversal)
    (hc : (buildModel declared draft implied).Clean) :
    List.Forall₂ (Draws draft.registry draft.elements)
      (declaredOf (buildModel declared draft implied).value.relationships)
      traversal.relationships := by
  unfold buildModel at hc ⊢
  obtain ⟨hresolved, _⟩ := Reported.clean_bind.mp hc
  obtain ⟨relationships, he, hd⟩ := resolveRelationships_draws hr.relationships hresolved
  rw [List.nil_append] at he
  rw [Reported.bind_value, Reported.pure_value, he]
  split
  · rw [declaredOf_addAllImplied, declaredOf_eq_self hd]
    exact hd
  · rw [declaredOf_eq_self hd]
    exact hd

end Build

end Blueprint
