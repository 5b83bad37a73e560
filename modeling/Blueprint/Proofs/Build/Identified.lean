import Blueprint.Compilation
import Blueprint.Proofs.Build.Placed
import Blueprint.Proofs.Integrity
import Blueprint.Proofs.Token.Stream

/-!
# Identifiers under hierarchical identifiers

Every element that is built is made of a declaration of its own; what has a taken identifier is left
out. Where identifiers are hierarchical, a plain element has its own identifier behind that of the
element around it. A deployed instance has its own one alone: instances are registered last, when
nothing is around them any more. So of several instances that are given one identifier, on whatever
deployment nodes, only one is built.
-/

namespace Blueprint

namespace Declared

/-- Whether a declaration is that of a plain element. -/
def Element.isPlain : Element → Bool
  | .plain _ _ _ _ => true
  | _ => false

/-- The identifier that is given to a deployed instance. -/
def Occurrence.instanceId? (occurrence : Occurrence) : Option String :=
  match occurrence.node with
  | .deployed deployment _ => Build.given? deployment.identifier
  | _ => none

end Declared

namespace Resolved

/-- An identifier behind that of the element around it, if there is one. -/
def idBelow (parent : Option String) (own : String) : String :=
  match parent with
  | some parent => parent ++ "." ++ own
  | none => own

/-- The identifier of what an element is an instance of. -/
def ElementSort.target? : ElementSort → Option String
  | .softwareSystemInstance target _ _ => some target
  | .containerInstance target _ _ => some target
  | _ => none

/-- An element has the identifier that hierarchical identifiers give to its declaration. -/
def Element.IdentifiedBy (element : Element) : Declared.Element → Prop
  | .plain _ details _ _ =>
    element.id = idBelow element.parent (Build.localId details.identifier details.name)
  | .environment heading _ _ => element.id = Build.localId heading.identifier heading.name
  | .deployed deployment _ => ∃ target count, element.sort.target? = some target ∧
      element.id = (Build.given? deployment.identifier).getD
        (target ++ "-instance-" ++ toString (count + 1))

/-- An element is made of a declaration that is met in a model. -/
structure Element.MadeOf (element : Element) (occurrence : Declared.Occurrence) : Prop where
  /-- The element is what the declaration says. -/
  stands : element.Stands occurrence.node
  /-- The element has a parent exactly if there is a declaration around it. -/
  nested : element.parent.isSome = occurrence.outer.isSome
  /-- The element has the identifier of the declaration. -/
  identified : element.IdentifiedBy occurrence.node

/-- An identifier differs from itself behind another one. -/
theorem id_ne_append (parent own : String) : own ≠ parent ++ "." ++ own := by
  intro he
  have hl := congrArg String.length he
  rw [String.length_append, String.length_append] at hl
  have hdot : ".".length = 1 := rfl
  omega

/-- Where an identifier is given inside of another element, exactly plain elements have it behind
that of the other element. -/
theorem Element.MadeOf.id_eq_iff {element : Element} {occurrence : Declared.Occurrence}
    (h : element.MadeOf occurrence) {parent identifier : String}
    (hp : element.parent = some parent)
    (hg : Build.given? occurrence.node.identifier = some identifier) :
    element.id = parent ++ "." ++ identifier ↔ occurrence.node.isPlain = true := by
  obtain ⟨node, outer⟩ := occurrence
  have hi := h.identified
  cases node with
  | plain sort details relationships members =>
    have hg : Build.given? details.identifier = some identifier := hg
    have hi : element.id = _ := hi
    rw [hi, hp, Build.localId, hg]
    exact ⟨fun _ => rfl, fun _ => rfl⟩
  | environment heading relationships members =>
    have hg : Build.given? heading.identifier = some identifier := hg
    have hi : element.id = _ := hi
    rw [hi, Build.localId, hg]
    exact ⟨fun he => absurd he (id_ne_append _ _), nofun⟩
  | deployed deployment relationships =>
    have hg : Build.given? deployment.identifier = some identifier := hg
    obtain ⟨target, count, -, hi⟩ := hi
    rw [hi, hg]
    exact ⟨fun he => absurd he (id_ne_append _ _), nofun⟩

/-- A deployed instance that is given an identifier has just this one. -/
theorem Element.MadeOf.id_eq_of_instanceId? {element : Element}
    {occurrence : Declared.Occurrence} (h : element.MadeOf occurrence) {identifier : String}
    (hg : occurrence.instanceId? = some identifier) : element.id = identifier := by
  obtain ⟨node, outer⟩ := occurrence
  cases node with
  | plain => cases hg
  | environment => cases hg
  | deployed deployment relationships =>
    have hg : Build.given? deployment.identifier = some identifier := hg
    obtain ⟨target, count, -, hi⟩ := h.identified
    rw [hi, hg]
    rfl

/-- The identifiers given to instances are among those of the elements, in the same order. -/
theorem sublist_ids_of_madeOf {elements : List Element} {made : List Declared.Occurrence}
    (h : List.Forall₂ Element.MadeOf elements made) :
    (made.filterMap Declared.Occurrence.instanceId?).Sublist (elements.map Element.id) := by
  induction h with
  | nil => exact .slnil
  | @cons element occurrence elements made hm _ ih =>
    rw [List.filterMap_cons, List.map_cons]
    cases hg : occurrence.instanceId? with
    | none => exact ih.cons _
    | some identifier =>
      rw [hm.id_eq_of_instanceId? hg]
      exact ih.cons_cons _

end Resolved

namespace Build

open Declared (Traversal Deployment Occurrence)
open Resolved (idBelow)

/-! ## What is made of a part of a model -/

/-- Two lists together match two others where each matches one. -/
theorem sublistForall₂_append {α β : Type} {R : α → β → Prop} {xs us : List α} {ys vs : List β}
    (h₁ : List.SublistForall₂ R xs ys) (h₂ : List.SublistForall₂ R us vs) :
    List.SublistForall₂ R (xs ++ us) (ys ++ vs) := by
  obtain ⟨zs, hz, hs⟩ := List.sublistForall₂_iff.mp h₁
  obtain ⟨ws, hw, ht⟩ := List.sublistForall₂_iff.mp h₂
  exact List.sublistForall₂_iff.mpr ⟨zs ++ ws, List.rel_append hz hw, hs.append ht⟩

/-- An instance waits as it was met inside of a deployment node. -/
structure QueuedOf (waiting : WaitingInstance) (deployment : Deployment) : Prop where
  /-- The declaration is kept. -/
  declared : waiting.declared = deployment.deployed
  /-- There is a declaration around it. -/
  nested : deployment.outer.isSome = true

/-- What joins a draft is made of a part of a model; some of that part may be left out. -/
structure MadeFrom (draft later : Draft) (traversal : Traversal) : Prop where
  /-- The elements that join are made of elements of the part. -/
  elements : ∃ more, later.elements = draft.elements ++ more ∧
    List.SublistForall₂ Resolved.Element.MadeOf more traversal.nodes
  /-- The instances that join wait as they were met. -/
  instances : ∃ more, later.instances = draft.instances ++ more ∧
    List.SublistForall₂ QueuedOf more traversal.deployments

namespace MadeFrom

variable {draft later last : Draft} {first second : Traversal}

/-- Where nothing joins a draft, all of a part is left out. -/
theorem skip (draft : Draft) (traversal : Traversal) : MadeFrom draft draft traversal :=
  ⟨⟨[], (List.append_nil _).symm, .nil⟩, ⟨[], (List.append_nil _).symm, .nil⟩⟩

/-- Relationships that wait are no elements. -/
theorem await (draft : Draft) (relationships : List Declared.Relationship)
    (context : Option String) (traversal : Traversal) :
    MadeFrom draft (draft.await relationships context) traversal :=
  ⟨⟨[], (List.append_nil _).symm, .nil⟩, ⟨[], (List.append_nil _).symm, .nil⟩⟩

/-- What is made of two parts adds up. -/
theorem trans (h₁ : MadeFrom draft later first) (h₂ : MadeFrom later last second) :
    MadeFrom draft last (first ++ second) := by
  obtain ⟨es, he, hem⟩ := h₁.elements
  obtain ⟨fs, hf, hfm⟩ := h₂.elements
  obtain ⟨is, hi, him⟩ := h₁.instances
  obtain ⟨js, hj, hjm⟩ := h₂.instances
  refine ⟨⟨es ++ fs, ?_, sublistForall₂_append hem hfm⟩,
    ⟨is ++ js, ?_, sublistForall₂_append him hjm⟩⟩
  · rw [hf, he, List.append_assoc]
  · rw [hj, hi, List.append_assoc]

/-- An element that joins a draft is made of the declaration that is met first. -/
theorem of_element {element : Resolved.Element} {traversal : Traversal}
    {occurrence : Occurrence} (he : later.elements = draft.elements ++ [element])
    (hi : later.instances = draft.instances) (hm : element.MadeOf occurrence)
    (ht : traversal.nodes = [occurrence]) : MadeFrom draft later traversal :=
  ⟨⟨[element], he, ht ▸ .cons hm .nil⟩, ⟨[], by rw [hi, List.append_nil], .nil⟩⟩

end MadeFrom

/-! ## Declared elements -/

/-- A place has hierarchical identifiers, and an element around it exactly if there is a declaration
around it. -/
structure Place.Around (place : Place) (outer : Option Nat) : Prop where
  /-- Identifiers are hierarchical. -/
  hierarchical : place.hierarchical = true
  /-- There is an element around the place exactly if there is a declaration. -/
  parent : place.parent.isSome = outer.isSome
  /-- A deployment node around the place is a declaration. -/
  host : place.host.isSome = true → outer.isSome = true

namespace Place

variable {place : Place} {outer : Option Nat}

/-- Outside of all elements there is none around. -/
theorem around_none : Around { hierarchical := true } none := ⟨rfl, rfl, nofun⟩

/-- Under hierarchical identifiers, one stands behind that of the element around. -/
theorem Around.fullId_eq (h : place.Around outer) (own : String) :
    place.fullId own = idBelow place.parent own := by
  unfold fullId idBelow
  cases place.parent with
  | none => rfl
  | some parent => exact if_pos h.hierarchical

/-- Inside a plain element that is no group, the element is around; a group leaves what is. -/
theorem Around.inside (h : place.Around outer) (sort : Declared.PlainSort) (id : String)
    (count : Nat) :
    (place.inside sort id).Around (if sort = .group then outer else some count) := by
  unfold Place.inside
  split
  · rw [if_pos rfl]
    exact ⟨h.hierarchical, h.parent, nofun⟩
  · rw [if_neg (by simp)]
    exact ⟨h.hierarchical, rfl, fun _ => rfl⟩
  · rename_i hg _
    rw [if_neg (by simpa using hg)]
    exact ⟨h.hierarchical, rfl, nofun⟩

/-- Inside a deployment environment, the environment is around. -/
theorem Around.insideEnvironment (h : place.Around outer) (id name : String) (count : Nat) :
    (place.insideEnvironment id name).Around (some count) :=
  ⟨h.hierarchical, rfl, nofun⟩

/-- A plain element is made of its declaration. -/
theorem Around.madeOf_element (h : place.Around outer) (sort : Declared.PlainSort)
    (details : Declared.Details) (relationships : List Declared.Relationship)
    (members : List Declared.Element) :
    (place.element sort details (place.fullId (localId details.identifier details.name))).MadeOf
      ⟨.plain sort details relationships members, outer⟩ :=
  ⟨place.renders_element sort details _, h.parent, h.fullId_eq _⟩

/-- A deployment environment is made of its declaration. -/
theorem Around.madeOf_environment (h : place.Around outer) (heading : Declared.Environment)
    (relationships : List Declared.Relationship) (members : List Declared.Element) :
    (Build.environmentElement place heading).MadeOf
      ⟨.environment heading relationships members, outer⟩ :=
  ⟨⟨rfl, rfl⟩, h.parent, rfl⟩

end Place

mutual

/-- What joins a draft with an element is made of it and what is in it. -/
theorem registerElement_madeFrom {place : Place} {outer : Option Nat} (hp : place.Around outer)
    (draft : Draft) (count : Nat) : ∀ element : Declared.Element,
    MadeFrom draft (registerElement place draft element).value (element.traverse outer count)
  | .plain sort details relationships members => by
    rw [registerElement, Declared.Element.traverse]
    split
    · exact .skip _ _
    · have hadd : MadeFrom draft (draft.addPlain place sort details relationships)
          { nodes := [⟨.plain sort details relationships members, outer⟩]
            mentions := Declared.mentionsIn (some count) relationships } :=
        .of_element (Draft.elements_addPlain ..) (Draft.instances_addPlain ..)
          (hp.madeOf_element sort details relationships members) rfl
      exact hadd.trans (registerMembers_madeFrom (hp.inside sort _ count) _ (count + 1) members)
  | .environment heading relationships members => by
    rw [registerElement, Declared.Element.traverse]
    dsimp only
    split
    · exact .skip _ _
    · have hadd : MadeFrom draft (draft.add (environmentElement place heading))
          { nodes := [⟨.environment heading relationships members, outer⟩] } :=
        .of_element rfl rfl (hp.madeOf_environment heading relationships members) rfl
      have hin := hadd.trans (registerMembers_madeFrom
        (hp.insideEnvironment (localId heading.identifier heading.name) heading.name count)
        (draft.add (environmentElement place heading)) (count + 1) members)
      exact hin.trans (.await _ relationships _ _)
  | .deployed deployment relationships => by
    rw [registerElement, Declared.Element.traverse]
    split
    · rename_i host hh
      exact ⟨⟨[], (List.append_nil _).symm, .nil⟩,
        ⟨_, rfl, .cons ⟨rfl, hp.host (by rw [hh]; rfl)⟩ .nil⟩⟩
    · exact .skip _ _

/-- What joins a draft with elements is made of them and what is in them. -/
theorem registerMembers_madeFrom {place : Place} {outer : Option Nat} (hp : place.Around outer)
    (draft : Draft) (count : Nat) : ∀ members : List Declared.Element,
    MadeFrom draft (registerMembers place draft members).value
      (Declared.Element.traverseAll outer count members)
  | [] => by
    rw [registerMembers, Declared.Element.traverseAll]
    exact .skip _ _
  | member :: members => by
    rw [registerMembers, Declared.Element.traverseAll, Reported.bind_value]
    exact (registerElement_madeFrom hp draft count member).trans
      (registerMembers_madeFrom hp _ _ members)

end

/-- What joins a draft with an enterprise is made of what is in it. -/
theorem registerEnterprise_madeFrom (draft : Draft) (count : Nat)
    (enterprise : Option Declared.Enterprise) :
    MadeFrom draft (registerEnterprise { hierarchical := true } draft enterprise).value
      (Declared.Enterprise.traverse count enterprise) := by
  cases enterprise with
  | none => exact .skip _ _
  | some enterprise =>
    exact (registerMembers_madeFrom Place.around_none draft count enterprise.members).trans
      (.await _ enterprise.relationships none _)

/-- What a draft has after a model is registered is made of what is in the model. -/
theorem registerModel_madeFrom (draft : Draft) (model : Declared.Model) :
    MadeFrom draft (registerModel true draft model).value model.traverse := by
  have hmembers : ∀ (draft : Draft) (count : Nat) (members : List Declared.Element),
      MadeFrom draft (registerMembers { hierarchical := true } draft members).value
        (Declared.Element.traverseAll none count members) :=
    fun draft count => registerMembers_madeFrom Place.around_none draft count
  exact (((hmembers _ _ _).trans (registerEnterprise_madeFrom _ _ _)).trans
    (hmembers _ _ _)).trans (.await _ model.relationships none _)

/-! ## Instances -/

/-- The element that joins a draft with an instance, if one does, is made of its declaration. -/
theorem registerInstance_madeOf (draft : Draft) {waiting : WaitingInstance}
    {deployment : Deployment} (hq : QueuedOf waiting deployment) :
    ∃ more, (registerInstance draft waiting).value.elements = draft.elements ++ more ∧
      List.SublistForall₂ Resolved.Element.MadeOf more [deployment.occurrence] := by
  unfold registerInstance
  rw [Reported.bind_value]
  split
  · exact ⟨[], (List.append_nil _).symm, .nil⟩
  · rename_i target _
    dsimp only
    split
    · exact ⟨[], (List.append_nil _).symm, .nil⟩
    · refine ⟨_, rfl, .cons ⟨?_, ?_, ?_⟩ .nil⟩
      · have hs := stands_instanceElement waiting target
          ((given? waiting.declared.identifier).getD (instanceId draft target.id))
          deployment.relationships
        rw [hq.declared] at hs
        exact hs
      · exact hq.nested.symm
      · refine ⟨target.id, draft.targets.count target.id, ?_, ?_⟩
        · unfold instanceElement
          dsimp only
          split <;> rfl
        · rw [← hq.declared]
          rfl

/-- The elements that join a draft with instances are made of their declarations. -/
theorem registerInstances_madeOf (draft : Draft) {queue : List WaitingInstance}
    {deployments : List Deployment} (hq : List.SublistForall₂ QueuedOf queue deployments) :
    ∃ more, (registerInstances draft queue).value.elements = draft.elements ++ more ∧
      List.SublistForall₂ Resolved.Element.MadeOf more (deployments.map Deployment.occurrence) := by
  induction hq generalizing draft with
  | nil => exact ⟨[], (List.append_nil _).symm, .nil⟩
  | @cons waiting deployment queue deployments hw _ ih =>
    rw [registerInstances, Reported.bind_value, List.map_cons]
    obtain ⟨es, he, hem⟩ := registerInstance_madeOf draft hw
    obtain ⟨fs, hf, hfm⟩ := ih (registerInstance draft waiting).value
    refine ⟨es ++ fs, ?_, sublistForall₂_append hem hfm⟩
    rw [hf, he, List.append_assoc]
  | cons_right _ ih =>
    obtain ⟨more, he, hm⟩ := ih draft
    exact ⟨more, he, .cons_right hm⟩

/-! ## All elements -/

/-- Under hierarchical identifiers, all elements are made of declarations. -/
theorem registerAll_madeOf {declared : Declared.Workspace} (h : isHierarchical declared = true) :
    List.SublistForall₂ Resolved.Element.MadeOf (registerAll declared).value.elements
      declared.traverse.occurrences := by
  have hmodel : MadeFrom {} (registerDeclared true declared.model).value declared.traverse := by
    unfold Declared.Workspace.traverse
    cases declared.model with
    | none => exact .skip _ _
    | some model => exact registerModel_madeFrom {} model
  obtain ⟨es, he, hem⟩ := hmodel.elements
  obtain ⟨is, hi, him⟩ := hmodel.instances
  have hi : (registerDeclared true declared.model).value.instances = is := hi
  have he : (registerDeclared true declared.model).value.elements = es := he
  unfold registerAll
  rw [Reported.bind_value, h, hi]
  obtain ⟨fs, hf, hfm⟩ :=
    registerInstances_madeOf (registerDeclared true declared.model).value him
  rw [hf, he]
  exact sublistForall₂_append hem hfm

/-- The elements of the model that is built are those that are registered. -/
theorem elements_build (declared : Declared.Workspace) (implied : Bool) :
    (build declared implied).value.model.elements = (registerAll declared).value.elements := by
  unfold build buildWith
  simp only [Reported.bind_value, Reported.pure_value]
  exact (buildModel_linked declared (registerAll_sound declared) implied).1

/-- Under hierarchical identifiers, every element that is built is made of a declaration of its own,
in the order of the traversal. If it has a parent and is given an identifier, it has this behind the
identifier of the parent exactly if it is a plain element. A deployed instance that is given an
identifier has just this one, so no two of them are given the same. -/
theorem build_identifies (declared : Declared.Workspace) (implied : Bool)
    (h : isHierarchical declared = true) :
    ∃ made, made.Sublist declared.traverse.occurrences ∧
      List.Forall₂ (fun element occurrence => element.MadeOf occurrence ∧
          ∀ parent identifier, element.parent = some parent →
            given? occurrence.node.identifier = some identifier →
            (element.id = parent ++ "." ++ identifier ↔ occurrence.node.isPlain = true))
        (build declared implied).value.model.elements made ∧
      (made.filterMap Occurrence.instanceId?).Nodup := by
  obtain ⟨made, hm, hs⟩ := List.sublistForall₂_iff.mp (registerAll_madeOf h)
  rw [elements_build]
  refine ⟨made, hs, ?_, ?_⟩
  · exact hm.imp fun element occurrence ho =>
      ⟨ho, fun parent identifier hp hg => ho.id_eq_iff hp hg⟩
  · exact (registerAll_sound declared).ids_nodup.sublist (Resolved.sublist_ids_of_madeOf hm)

/-- A source with hierarchical identifiers, in which two deployment nodes hold instances that are
given one identifier. -/
def copiedTwice : String :=
  "!identifiers hierarchical\nworkspace\x7bmodel\x7b\nbank=softwareSystem \"Bank\"\n" ++
    "live=deploymentEnvironment \"Live\"\x7b\na=deploymentNode \"A\"\x7b\n" ++
    "copy=softwareSystemInstance bank\n\x7d\nb=deploymentNode \"B\"\x7b\n" ++
    "copy=softwareSystemInstance bank\n\x7d\n\x7d\n\x7d\x7d"

/-- The source compiles with one error, and all its elements but the second instance are built. -/
theorem exists_copiedTwice :
    ∃ compilation, Compilation.ofSource copiedTwice {} = .ok compilation ∧
      isHierarchical compilation.declared = true ∧
      compilation.declared.traverse.occurrences.length = 6 ∧
      (build compilation.declared true).value.model.elements.length = 5 ∧
      compilation.workspace.model.elements.map (fun element => (element.id, element.parent)) =
        [("bank", none), ("live", none), ("live.a", some "live"), ("live.b", some "live"),
          ("copy", some "live.a")] ∧
      compilation.diagnostics.map Diagnostic.message =
        ["Duplicate element identifier: copy"] := by
  have hd : (Compilation.ofSource copiedTwice {}).toOption.map (fun compilation : Compilation =>
      ((isHierarchical compilation.declared, compilation.declared.traverse.occurrences.length,
          (build compilation.declared true).value.model.elements.length),
        compilation.workspace.model.elements.map (fun element => (element.id, element.parent)),
        compilation.diagnostics.map Diagnostic.message)) =
      some ((true, 6, 5), [("bank", none), ("live", none), ("live.a", some "live"),
        ("live.b", some "live"), ("copy", some "live.a")],
        ["Duplicate element identifier: copy"]) := by
    decide +kernel
  obtain ⟨compilation, hp, he⟩ := exists_ok_of_map hd
  simp only [Prod.mk.injEq] at he
  obtain ⟨⟨hh, hall, hcount⟩, helements, hmessages⟩ := he
  exact ⟨compilation, hp, hh, hall, hcount, helements, hmessages⟩

/-- Of the six declarations of the source five are made into elements, with one instance. -/
theorem build_identifies_copiedTwice :
    ∃ compilation, Compilation.ofSource copiedTwice {} = .ok compilation ∧
      isHierarchical compilation.declared = true ∧
      compilation.declared.traverse.occurrences.length = 6 ∧
      ∃ made : List Occurrence,
        made.Sublist compilation.declared.traverse.occurrences ∧ made.length = 5 ∧
        (made.filterMap Occurrence.instanceId?).Nodup := by
  obtain ⟨compilation, hp, hh, hall, hcount, -⟩ := exists_copiedTwice
  obtain ⟨made, hs, hm, hn⟩ := build_identifies compilation.declared true hh
  exact ⟨compilation, hp, hh, hall, made, hs, hm.length_eq ▸ hcount, hn⟩

/-- The instances of the source clash, although they stand on two deployment nodes, and the one that
is built has an identifier that does not start with that of its parent. -/
theorem copiedTwice_clash :
    ∃ compilation, Compilation.ofSource copiedTwice {} = .ok compilation ∧
      isHierarchical compilation.declared = true ∧
      (∃ element ∈ compilation.workspace.model.elements,
        element.parent = some "live.a" ∧ element.id = "copy") ∧
      (∀ element ∈ compilation.workspace.model.elements, element.parent ≠ some "live.b") ∧
      compilation.diagnostics.map Diagnostic.message =
        ["Duplicate element identifier: copy"] := by
  obtain ⟨compilation, hp, hh, -, -, helements, hmessages⟩ := exists_copiedTwice
  refine ⟨compilation, hp, hh, ?_, fun element hm hb => ?_, hmessages⟩
  · have hm : ("copy", some "live.a") ∈ compilation.workspace.model.elements.map
        (fun element => (element.id, element.parent)) := by
      rw [helements]
      simp
    obtain ⟨element, hm, he⟩ := List.mem_map.mp hm
    exact ⟨element, hm, congrArg Prod.snd he, congrArg Prod.fst he⟩
  · have hm := List.mem_map_of_mem (f := fun element => (element.id, element.parent)) hm
    rw [helements, hb] at hm
    simp at hm

end Build

end Blueprint
