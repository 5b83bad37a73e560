import Mathlib.Data.List.Forall2
import Blueprint.Build.Workspace
import Blueprint.Proofs.Build.Registered
import Blueprint.Proofs.Declared.Located
import Blueprint.Proofs.Declared.Traversal
import Blueprint.Proofs.Registry.Unresolved

/-!
# Elements in the order of their declarations

Where no error is reported, registering a model makes one element of every declaration, in the order
in which the model is gone through, each with what its declaration says and with the element of the
declaration around it as parent. The relationships and instances that wait are those of the model,
in the same order.
-/

namespace Blueprint

namespace Resolved

/-- An identifier is that of the element at a place, or there is neither. -/
def IsAt (elements : List Element) (outer : Option Nat) (id : Option String) : Prop :=
  match outer with
  | some place => ∃ element, elements[place]? = some element ∧ id = some element.id
  | none => id = none

/-- More elements leave the places of those that are there. -/
theorem IsAt.append {elements : List Element} {outer : Option Nat} {id : Option String}
    (h : IsAt elements outer id) (more : List Element) : IsAt (elements ++ more) outer id := by
  cases outer with
  | none => exact h
  | some place =>
    obtain ⟨element, he, hi⟩ := h
    refine ⟨element, ?_, hi⟩
    have hl := (List.getElem?_eq_some_iff.mp he).1
    rw [List.getElem?_append_left hl]
    exact he

/-- The element that comes next has the next place. -/
theorem isAt_length (elements : List Element) (element : Element) :
    IsAt (elements ++ [element]) (some elements.length) (some element.id) :=
  ⟨element, by simp, rfl⟩

/-- The class of an instance. -/
def classOfInstance : Declared.InstanceOf → ElementClass
  | .softwareSystem => .softwareSystemInstance
  | .container => .containerInstance

/-- The class of a plain element. -/
def classOfSort : Declared.PlainSort → ElementClass
  | .person _ => .person
  | .softwareSystem _ => .softwareSystem
  | .container _ => .container
  | .component _ => .component
  | .group => .group
  | .deploymentNode _ _ => .deploymentNode
  | .infrastructureNode _ => .infrastructureNode

/-- What only elements of a sort have is kept. -/
def ElementSort.Keeps (sort : ElementSort) : Declared.PlainSort → Prop
  | .person location => sort = .person location
  | .softwareSystem location => sort = .softwareSystem location
  | .container technology => sort = .container technology
  | .component technology => sort = .component technology
  | .group => sort = .group
  | .deploymentNode technology instances =>
    ∃ environment, sort = .deploymentNode technology instances environment
  | .infrastructureNode technology =>
    ∃ environment, sort = .infrastructureNode technology environment

/-- The deployment groups of an instance are kept. -/
def ElementSort.KeepsGroups (sort : ElementSort) (groups : List String) :
    Declared.InstanceOf → Prop
  | .softwareSystem =>
    ∃ system environment, sort = .softwareSystemInstance system environment groups
  | .container => ∃ container environment, sort = .containerInstance container environment groups

/-- What an element has from the declaration of a plain element. -/
structure Element.Renders (element : Element) (sort : Declared.PlainSort)
    (details : Declared.Details) : Prop where
  /-- The class follows from the sort. -/
  kind : element.kind = classOfSort sort
  /-- What only elements of the sort have is kept. -/
  sort : element.sort.Keeps sort
  /-- The name is kept. -/
  name : element.name = details.name
  /-- The description is kept. -/
  description : element.description = details.description
  /-- The tags are kept. -/
  tags : element.tags = details.tags
  /-- The properties are kept. -/
  properties : element.properties = details.properties
  /-- The perspectives are kept. -/
  perspectives : element.perspectives = details.perspectives
  /-- The address is kept. -/
  url : element.url = details.url

/-- An element is what a declaration says. -/
def Element.Stands (element : Element) : Declared.Element → Prop
  | .plain sort details _ _ => element.Renders sort details
  | .environment heading _ _ =>
    element.kind = .deploymentEnvironment ∧ element.name = heading.name
  | .deployed deployment _ =>
    element.kind = classOfInstance deployment.instanceOf ∧
      element.sort.KeepsGroups deployment.groups deployment.instanceOf ∧
      element.tags = deployment.tags ∧ element.properties = deployment.properties

/-- An element stands for a declaration that is met in a model: it is what the declaration says, and
its parent is the element of the declaration around it. -/
structure Element.Matches (elements : List Element) (element : Element)
    (occurrence : Declared.Occurrence) : Prop where
  /-- The element is what the declaration says. -/
  stands : element.Stands occurrence.node
  /-- The parent is the element of the declaration around it. -/
  parent : IsAt elements occurrence.outer element.parent

/-- An element stands for its declaration when more elements come. -/
theorem Element.Matches.append {elements : List Element} {element : Element}
    {occurrence : Declared.Occurrence} (h : element.Matches elements occurrence)
    (more : List Element) : element.Matches (elements ++ more) occurrence :=
  ⟨h.stands, h.parent.append more⟩

end Resolved

namespace Build

open Resolved (IsAt)
open Declared (Traversal Mention Deployment)

variable {spots : Position → Prop}

/-! ## What is taken from a part of a model -/

/-- A relationship waits as it was met, and has a position. -/
structure Waits (spots : Position → Prop) (elements : List Resolved.Element)
    (waiting : WaitingRelationship) (mention : Mention) : Prop where
  /-- The declaration is kept. -/
  declared : waiting.declared = mention.relationship
  /-- The context is the element around it. -/
  context : IsAt elements mention.outer waiting.context
  /-- It has a position. -/
  position : Marked spots waiting.declared.position

/-- An instance waits as it was met, and it and its relationships have positions. -/
structure Hosts (spots : Position → Prop) (elements : List Resolved.Element)
    (waiting : WaitingInstance) (deployment : Deployment) : Prop where
  /-- The declaration is kept. -/
  declared : waiting.declared = deployment.deployed
  /-- The relationships are kept. -/
  relationships : waiting.relationships = deployment.relationships
  /-- The host is the deployment node around it. -/
  host : IsAt elements deployment.outer (some waiting.host)
  /-- It has a position. -/
  position : Marked spots waiting.declared.position
  /-- The relationships have positions. -/
  traced : Declared.Traced spots waiting.relationships

/-- A relationship waits as it was met when more elements come. -/
theorem Waits.append {elements : List Resolved.Element} {waiting : WaitingRelationship}
    {mention : Mention} (h : Waits spots elements waiting mention)
    (more : List Resolved.Element) : Waits spots (elements ++ more) waiting mention :=
  ⟨h.declared, h.context.append more, h.position⟩

/-- An instance waits as it was met when more elements come. -/
theorem Hosts.append {elements : List Resolved.Element} {waiting : WaitingInstance}
    {deployment : Deployment} (h : Hosts spots elements waiting deployment)
    (more : List Resolved.Element) : Hosts spots (elements ++ more) waiting deployment :=
  ⟨h.declared, h.relationships, h.host.append more, h.position, h.traced⟩

/-- A draft has what an earlier one has, and what is met in a part of a model, and nothing else. -/
structure Takes (spots : Position → Prop) (draft later : Draft) (traversal : Traversal) : Prop where
  /-- There is one more element for each element that is met. -/
  elements : ∃ more, later.elements = draft.elements ++ more ∧
    List.Forall₂ (Resolved.Element.Matches later.elements) more traversal.nodes
  /-- One more relationship waits for each one that is met. -/
  relationships : ∃ more, later.relationships = draft.relationships ++ more ∧
    List.Forall₂ (Waits spots later.elements) more traversal.mentions
  /-- One more instance waits for each one that is met. -/
  instances : ∃ more, later.instances = draft.instances ++ more ∧
    List.Forall₂ (Hosts spots later.elements) more traversal.deployments

namespace Takes

variable {draft later last : Draft} {first second : Traversal}

/-- Nothing is taken where nothing is met. -/
theorem refl (draft : Draft) : Takes spots draft draft {} :=
  ⟨⟨[], (List.append_nil _).symm, .nil⟩, ⟨[], (List.append_nil _).symm, .nil⟩,
    ⟨[], (List.append_nil _).symm, .nil⟩⟩

/-- What is taken of two parts adds up. -/
theorem trans (h₁ : Takes spots draft later first) (h₂ : Takes spots later last second) :
    Takes spots draft last (first ++ second) := by
  obtain ⟨es, he, hem⟩ := h₁.elements
  obtain ⟨fs, hf, hfm⟩ := h₂.elements
  obtain ⟨rs, hr, hrm⟩ := h₁.relationships
  obtain ⟨ss, hs, hsm⟩ := h₂.relationships
  obtain ⟨is, hi, him⟩ := h₁.instances
  obtain ⟨js, hj, hjm⟩ := h₂.instances
  refine ⟨⟨es ++ fs, ?_, ?_⟩, ⟨rs ++ ss, ?_, ?_⟩, ⟨is ++ js, ?_, ?_⟩⟩
  · rw [hf, he, List.append_assoc]
  · refine List.rel_append (hem.imp fun element occurrence hm => ?_) hfm
    rw [hf]
    exact hm.append fs
  · rw [hs, hr, List.append_assoc]
  · refine List.rel_append (hrm.imp fun waiting mention hm => ?_) hsm
    rw [hf]
    exact hm.append fs
  · rw [hj, hi, List.append_assoc]
  · refine List.rel_append (him.imp fun waiting deployment hm => ?_) hjm
    rw [hf]
    exact hm.append fs

/-- The count of elements grows by those that are met. -/
theorem length_elements (h : Takes spots draft later first) :
    later.elements.length = draft.elements.length + first.nodes.length := by
  obtain ⟨es, he, hm⟩ := h.elements
  rw [he, List.length_append, hm.length_eq]

/-- What is there stays at its place. -/
theorem isAt (h : Takes spots draft later first) {outer : Option Nat} {id : Option String}
    (hi : IsAt draft.elements outer id) : IsAt later.elements outer id := by
  obtain ⟨es, he, _⟩ := h.elements
  rw [he]
  exact hi.append es

/-- Where nothing was there before, everything is taken from the traversal. -/
theorem whole (h : Takes spots {} later first) :
    List.Forall₂ (Resolved.Element.Matches later.elements) later.elements first.nodes ∧
      List.Forall₂ (Waits spots later.elements) later.relationships first.mentions ∧
      List.Forall₂ (Hosts spots later.elements) later.instances first.deployments := by
  obtain ⟨es, he, hem⟩ := h.elements
  obtain ⟨rs, hr, hrm⟩ := h.relationships
  obtain ⟨is, hi, him⟩ := h.instances
  have he : later.elements = es := he
  have hr : later.relationships = rs := hr
  have hi : later.instances = is := hi
  refine ⟨?_, ?_, ?_⟩
  · rw [← he] at hem
    exact hem
  · rw [← hr] at hrm
    exact hrm
  · rw [← hi] at him
    exact him

/-- Where nothing was there before, the elements are those that are met. -/
theorem count (h : Takes spots {} later first) : later.elements.length = first.nodes.length :=
  h.whole.1.length_eq

end Takes

/-- Relationships that wait are those of a body. -/
theorem takes_await (draft : Draft) {relationships : List Declared.Relationship}
    (ht : Declared.Traced spots relationships) {outer : Option Nat} {context : Option String}
    (hc : IsAt draft.elements outer context) :
    Takes spots draft (draft.await relationships context)
      { mentions := Declared.mentionsIn outer relationships } := by
  refine ⟨⟨[], (List.append_nil _).symm, .nil⟩, ⟨_, rfl, ?_⟩,
    ⟨[], (List.append_nil _).symm, .nil⟩⟩
  unfold Declared.mentionsIn
  rw [List.forall₂_map_left_iff, List.forall₂_map_right_iff, List.forall₂_same]
  intro relationship hm
  exact ⟨rfl, hc, ht relationship hm⟩

/-- An element that joins a draft is taken. -/
theorem takes_element {draft later : Draft} {element : Resolved.Element}
    (he : later.elements = draft.elements ++ [element])
    (hr : later.relationships = draft.relationships) (hi : later.instances = draft.instances)
    {node : Declared.Element} {outer : Option Nat} (hs : element.Stands node)
    (hp : IsAt draft.elements outer element.parent) :
    Takes spots draft later { nodes := [⟨node, outer⟩] } := by
  refine ⟨⟨[element], he, ?_⟩, ⟨[], ?_, .nil⟩, ⟨[], ?_, .nil⟩⟩
  · refine .cons ⟨hs, ?_⟩ .nil
    rw [he]
    exact hp.append [element]
  · rw [hr, List.append_nil]
  · rw [hi, List.append_nil]

/-! ## Declared elements -/

/-- A place is that of the members of the declaration at a place among the elements. -/
structure Place.At (place : Place) (elements : List Resolved.Element) (outer : Option Nat) :
    Prop where
  /-- The element around the place is that of the declaration. -/
  parent : IsAt elements outer place.parent
  /-- A deployment node around the place is that element. -/
  host : ∀ id, place.host = some id → place.parent = some id

namespace Place

variable {place : Place} {elements : List Resolved.Element} {outer : Option Nat}

/-- Outside of all elements there is none around. -/
theorem at_outside (hierarchical : Bool) (elements : List Resolved.Element) :
    At { hierarchical } elements none :=
  ⟨rfl, nofun⟩

/-- Inside a plain element that is no group, the element is around; a group leaves what is. -/
theorem At.inside (h : place.At elements outer) {sort : Declared.PlainSort} {id : String}
    {count : Nat} (hi : IsAt elements (some count) (some id)) :
    (place.inside sort id).At elements (if sort = .group then outer else some count) := by
  unfold Place.inside
  split
  · rw [if_pos rfl]
    exact ⟨h.parent, nofun⟩
  · rw [if_neg (by simp)]
    exact ⟨hi, fun _ hh => hh⟩
  · rename_i hg _
    rw [if_neg (by simpa using hg)]
    exact ⟨hi, nofun⟩

/-- The members of a deployment node stand on it, those of others on none. -/
theorem isSome_host_inside (sort : Declared.PlainSort) (id : String)
    (h : sort.isHost = true) : (place.inside sort id).host.isSome = true := by
  cases sort <;> first | rfl | cases h

/-- A plain element is what its declaration says. -/
theorem renders_element (place : Place) (sort : Declared.PlainSort) (details : Declared.Details)
    (id : String) : (place.element sort details id).Renders sort details := by
  cases sort with
  | deploymentNode _ _ => exact ⟨rfl, ⟨_, rfl⟩, rfl, rfl, rfl, rfl, rfl, rfl⟩
  | infrastructureNode _ => exact ⟨rfl, ⟨_, rfl⟩, rfl, rfl, rfl, rfl, rfl, rfl⟩
  | _ => exact ⟨rfl, rfl, rfl, rfl, rfl, rfl, rfl, rfl⟩

end Place

/-- A plain element that joins a draft is taken with its relationships. -/
theorem takes_addPlain {draft : Draft} {place : Place} {outer : Option Nat}
    (hp : place.At draft.elements outer) (sort : Declared.PlainSort)
    (details : Declared.Details) {relationships : List Declared.Relationship}
    (ht : Declared.Traced spots relationships) (members : List Declared.Element) :
    Takes spots draft (draft.addPlain place sort details relationships)
      { nodes := [⟨.plain sort details relationships members, outer⟩]
        mentions := Declared.mentionsIn (some draft.elements.length) relationships } := by
  have helements := Draft.elements_addPlain draft place sort details relationships
  have hrelationships : (draft.addPlain place sort details relationships).relationships =
      draft.relationships ++ relationships.map
        (⟨·, some (place.fullId (localId details.identifier details.name))⟩) := by
    unfold Draft.addPlain
    dsimp only
    repeat' split
    all_goals rfl
  have hinstances := Draft.instances_addPlain draft place sort details relationships
  have hid := Resolved.isAt_length draft.elements
    (place.element sort details (place.fullId (localId details.identifier details.name)))
  refine ⟨⟨_, helements, .cons ⟨place.renders_element sort details _, ?_⟩ .nil⟩,
    ⟨_, hrelationships, ?_⟩, ⟨[], ?_, .nil⟩⟩
  · rw [helements]
    exact hp.parent.append _
  · unfold Declared.mentionsIn
    rw [List.forall₂_map_left_iff, List.forall₂_map_right_iff, List.forall₂_same, helements]
    intro relationship hm
    exact ⟨rfl, hid, ht relationship hm⟩
  · rw [hinstances, List.append_nil]

/-- The members of a plain element that joins a draft stand in it, those of a group beside it. -/
theorem inside_addPlain {draft : Draft} {place : Place} {outer : Option Nat}
    (hp : place.At draft.elements outer) (sort : Declared.PlainSort)
    (details : Declared.Details) (relationships : List Declared.Relationship) :
    (place.inside sort (place.fullId (localId details.identifier details.name))).At
      (draft.addPlain place sort details relationships).elements
      (if sort = .group then outer else some draft.elements.length) := by
  rw [Draft.elements_addPlain]
  have hid := Resolved.isAt_length draft.elements
    (place.element sort details (place.fullId (localId details.identifier details.name)))
  have hat : place.At (draft.elements ++
      [place.element sort details (place.fullId (localId details.identifier details.name))])
      outer := ⟨hp.parent.append _, hp.host⟩
  exact hat.inside hid

/-- The element that the declaration of a deployment environment makes. -/
def environmentElement (place : Place) (heading : Declared.Environment) : Resolved.Element :=
  { id := localId heading.identifier heading.name, name := heading.name,
    parent := place.parent, sort := .deploymentEnvironment }

/-- A deployment environment that joins a draft is taken. -/
theorem takes_environment {draft : Draft} {place : Place} {outer : Option Nat}
    (hp : place.At draft.elements outer) (heading : Declared.Environment)
    (relationships : List Declared.Relationship) (members : List Declared.Element) :
    Takes spots draft (draft.add (environmentElement place heading))
      { nodes := [⟨.environment heading relationships members, outer⟩] } := by
  have he : (draft.add (environmentElement place heading)).elements =
      draft.elements ++ [environmentElement place heading] := rfl
  have hs : (environmentElement place heading).Stands
      (.environment heading relationships members) := ⟨rfl, rfl⟩
  exact takes_element he rfl rfl hs hp.parent

/-- What is registered without an error has an identifier that is free. -/
theorem free_of_clean {draft other : Draft} {id : String} {position : Option Position}
    {next : Reported Draft}
    (hc : (if draft.isTaken id then do
        reportTaken id position
        return other
      else next).Clean) : ¬draft.isTaken id = true ∧ next.Clean := by
  split at hc
  · exact absurd (Reported.clean_bind.mp hc).1 (Reported.not_clean_report rfl)
  · exact ⟨‹_›, hc⟩

mutual

/-- Registering an element without an error takes it with everything in it. -/
theorem registerElement_takes {place : Place} {draft : Draft} {outer : Option Nat} {hosted : Bool}
    (hp : place.At draft.elements outer) (hh : hosted = true → place.host.isSome = true) :
    ∀ element : Declared.Element, element.Located spots hosted →
      (registerElement place draft element).Clean →
      Takes spots draft (registerElement place draft element).value
        (element.traverse outer draft.elements.length)
  | .plain sort details relationships members, hl, hc => by
    rw [registerElement] at hc ⊢
    obtain ⟨ht, hc⟩ := free_of_clean hc
    rw [Declared.Element.traverse, if_neg ht]
    obtain ⟨_, htraced, hmembers⟩ := hl
    have hadd := takes_addPlain hp sort details htraced members
    have hin := registerMembers_takes (inside_addPlain hp sort details relationships)
      (Place.isSome_host_inside sort _) members hmembers hc
    rw [hadd.length_elements] at hin
    exact hadd.trans hin
  | .environment heading relationships members, hl, hc => by
    rw [registerElement] at hc ⊢
    dsimp only at hc ⊢
    obtain ⟨ht, hc⟩ := free_of_clean hc
    rw [Declared.Element.traverse, if_neg ht]
    obtain ⟨_, htraced, hmembers⟩ := hl
    have hadd : Takes spots draft _ _ :=
      takes_environment hp heading relationships members
    have hid := Resolved.isAt_length draft.elements (environmentElement place heading)
    have hat : (place.insideEnvironment (localId heading.identifier heading.name)
        heading.name).At (draft.add (environmentElement place heading)).elements
        (some draft.elements.length) := ⟨hid, nofun⟩
    have hin := registerMembers_takes hat (fun hf => (by cases hf)) members hmembers
      (Reported.clean_bind.mp hc).1
    rw [hadd.length_elements] at hin
    have hall := hadd.trans hin
    exact hall.trans (takes_await _ htraced (hin.isAt hid))
  | .deployed deployment relationships, hl, hc => by
    rw [registerElement]
    rw [Declared.Element.traverse]
    obtain ⟨hhost, hposition, htraced⟩ := hl
    obtain ⟨host, hs⟩ := Option.isSome_iff_exists.mp (hh hhost)
    rw [hs]
    refine ⟨⟨[], (List.append_nil _).symm, .nil⟩, ⟨[], (List.append_nil _).symm, .nil⟩,
      ⟨_, rfl, .cons ⟨rfl, rfl, ?_, hposition, htraced⟩ .nil⟩⟩
    have hparent := hp.parent
    rw [hp.host host hs] at hparent
    exact hparent

/-- Registering elements without an error takes them one after the other. -/
theorem registerMembers_takes {place : Place} {draft : Draft} {outer : Option Nat} {hosted : Bool}
    (hp : place.At draft.elements outer) (hh : hosted = true → place.host.isSome = true) :
    ∀ members : List Declared.Element, Declared.Element.AllLocated spots hosted members →
      (registerMembers place draft members).Clean →
      Takes spots draft (registerMembers place draft members).value
        (Declared.Element.traverseAll outer draft.elements.length members)
  | [], _, _ => by
    rw [registerMembers, Declared.Element.traverseAll]
    exact Takes.refl draft
  | member :: members, hl, hc => by
    rw [registerMembers] at hc ⊢
    rw [Declared.Element.traverseAll, Reported.bind_value]
    obtain ⟨hclean, hrest⟩ := Reported.clean_bind.mp hc
    have hfirst := registerElement_takes hp hh member hl.1 hclean
    have hat : place.At (registerElement place draft member).value.elements outer :=
      ⟨hfirst.isAt hp.parent, hp.host⟩
    have hthen := registerMembers_takes hat hh members hl.2 hrest
    rw [hfirst.length_elements] at hthen
    exact hfirst.trans hthen

end

/-- Registering an enterprise without an error takes it. -/
theorem registerEnterprise_takes (hierarchical : Bool) {draft : Draft}
    {enterprise : Option Declared.Enterprise}
    (hl : ∀ found, enterprise = some found → found.Located spots)
    (hc : (registerEnterprise { hierarchical } draft enterprise).Clean) :
    Takes spots draft (registerEnterprise { hierarchical } draft enterprise).value
      (Declared.Enterprise.traverse draft.elements.length enterprise) := by
  cases enterprise with
  | none => exact Takes.refl draft
  | some enterprise =>
    obtain ⟨hmembers, htraced⟩ := hl enterprise rfl
    have hin := registerMembers_takes (Place.at_outside hierarchical draft.elements)
      (fun hf => (by cases hf)) enterprise.members hmembers (Reported.clean_bind.mp hc).1
    exact hin.trans (takes_await _ htraced rfl)

/-- Registering a model without an error takes it. -/
theorem registerModel_takes (hierarchical : Bool) {model : Declared.Model}
    (hl : model.Located spots) (hc : (registerModel hierarchical {} model).Clean) :
    Takes spots {} (registerModel hierarchical {} model).value model.traverse := by
  have hmembers := Declared.Element.allLocated_iff.mp hl.members
  have helements : Declared.Element.AllLocated spots false model.elements :=
    Declared.Element.allLocated_iff.mpr fun member hm => hmembers member (List.mem_filter.mp hm).1
  have henv : Declared.Element.AllLocated spots false model.environments :=
    Declared.Element.allLocated_iff.mpr fun member hm => hmembers member (List.mem_filter.mp hm).1
  unfold registerModel at hc ⊢
  dsimp only at hc ⊢
  obtain ⟨hc₁, hc⟩ := Reported.clean_bind.mp hc
  obtain ⟨hc₂, hc⟩ := Reported.clean_bind.mp hc
  obtain ⟨hc₃, _⟩ := Reported.clean_bind.mp hc
  have h₁ := registerMembers_takes (Place.at_outside hierarchical _) (fun hf => (by cases hf))
    model.elements helements hc₁
  have h₂ := registerEnterprise_takes hierarchical hl.enterprise hc₂
  have h₃ := registerMembers_takes (Place.at_outside hierarchical _) (fun hf => (by cases hf))
    model.environments henv hc₃
  rw [h₁.count] at h₂
  have h₁₂ := h₁.trans h₂
  rw [h₁₂.count] at h₃
  exact (h₁₂.trans h₃).trans (takes_await _ hl.relationships rfl)

/-! ## Instances -/

/-- The element that an instance makes is what its declaration says. -/
theorem stands_instanceElement (waiting : WaitingInstance) (target : Entry) (id : String)
    (relationships : List Declared.Relationship) :
    (instanceElement waiting target id).Stands (.deployed waiting.declared relationships) := by
  obtain ⟨declared, _, _, _⟩ := waiting
  obtain ⟨_, _, instanceOf, _, _, _, _⟩ := declared
  cases instanceOf with
  | softwareSystem => exact ⟨rfl, ⟨_, _, rfl⟩, rfl, rfl⟩
  | container => exact ⟨rfl, ⟨_, _, rfl⟩, rfl, rfl⟩

/-- Registering an instance without an error takes it with its relationships. -/
theorem registerInstance_takes {draft : Draft} {waiting : WaitingInstance}
    {deployment : Deployment} (hh : Hosts spots draft.elements waiting deployment)
    (hc : (registerInstance draft waiting).Clean) :
    Takes spots draft (registerInstance draft waiting).value
      { nodes := [deployment.occurrence]
        mentions :=
          Declared.mentionsIn (some draft.elements.length) deployment.relationships } := by
  have hp : waiting.declared.position.isSome = true := by
    obtain ⟨place, he, _⟩ := hh.position
    rw [he]
    rfl
  unfold registerInstance at hc ⊢
  dsimp only at hc ⊢
  obtain ⟨hresolve, hrest⟩ := Reported.clean_bind.mp hc
  obtain ⟨target, ht⟩ := Registry.resolve_found hp hresolve
  rw [Reported.bind_value, ht]
  rw [ht] at hrest
  dsimp only at hrest ⊢
  rw [if_neg (free_of_clean hrest).1]
  let id := (given? waiting.declared.identifier).getD (instanceId draft target.id)
  let element := instanceElement waiting target id
  have hs : element.Stands deployment.occurrence.node := by
    have hs := stands_instanceElement waiting target id deployment.relationships
    rw [hh.declared] at hs
    exact hs
  let counted : Draft := { draft with targets := draft.targets ++ [target.id] }
  have he : (counted.add element).elements = draft.elements ++ [element] := rfl
  have hadd : Takes spots draft (counted.add element) { nodes := [deployment.occurrence] } :=
    takes_element he rfl rfl hs hh.host
  have hid : IsAt (counted.add element).elements (some draft.elements.length) (some id) :=
    Resolved.isAt_length draft.elements element
  rw [← hh.relationships]
  exact hadd.trans (takes_await _ hh.traced hid)

/-- Registering instances without an error takes them one after the other. -/
theorem registerInstances_takes {draft : Draft} {queue : List WaitingInstance}
    {deployments : List Deployment}
    (hq : List.Forall₂ (Hosts spots draft.elements) queue deployments)
    (hc : (registerInstances draft queue).Clean) :
    Takes spots draft (registerInstances draft queue).value
      { nodes := deployments.map Deployment.occurrence
        mentions := Declared.deployedMentions draft.elements.length deployments } := by
  induction queue generalizing draft deployments with
  | nil =>
    cases hq
    exact Takes.refl draft
  | cons waiting queue ih =>
    cases hq with
    | cons hh hq =>
      rw [registerInstances] at hc ⊢
      rw [Reported.bind_value]
      obtain ⟨hfirst, hrest⟩ := Reported.clean_bind.mp hc
      have htakes := registerInstance_takes hh hfirst
      obtain ⟨more, hm, _⟩ := htakes.elements
      have hthen := ih (hq.imp fun other deployment ho => hm ▸ ho.append more) hrest
      rw [htakes.length_elements] at hthen
      exact htakes.trans hthen

/-! ## All elements -/

/-- Without an error there is one element for every declaration, and one relationship waits for
every one that is declared, in the order of the traversal. -/
structure Registers (spots : Position → Prop) (draft : Draft) (traversal : Traversal) : Prop where
  /-- There is one element for each declaration. -/
  elements : List.Forall₂ (Resolved.Element.Matches draft.elements) draft.elements
    traversal.occurrences
  /-- One relationship waits for each that is declared. -/
  relationships : List.Forall₂ (Waits spots draft.elements) draft.relationships
    traversal.relationships

/-- Registering everything in a workspace without an error passes nothing over. -/
theorem registerAll_registers {declared : Declared.Workspace} (hl : declared.Located spots)
    (hc : (registerAll declared).Clean) :
    Registers spots (registerAll declared).value declared.traverse := by
  unfold registerAll at hc ⊢
  rw [Reported.bind_value]
  obtain ⟨hmodel, hinstances⟩ := Reported.clean_bind.mp hc
  have htakes : Takes spots {} (registerDeclared (isHierarchical declared) declared.model).value
      declared.traverse := by
    unfold Declared.Workspace.traverse
    cases hm : declared.model with
    | none => exact Takes.refl {}
    | some model =>
      rw [hm] at hmodel
      exact registerModel_takes _ (hl.model model hm) hmodel
  have hthen := registerInstances_takes htakes.whole.2.2 hinstances
  rw [htakes.count] at hthen
  have hall := (htakes.trans hthen).whole
  exact ⟨hall.1, hall.2.1⟩

end Build

end Blueprint
