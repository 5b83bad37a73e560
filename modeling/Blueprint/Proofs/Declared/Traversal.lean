import Blueprint.Declared.Node

/-!
# The elements and relationships of a model in order

A model is gone through depth first: the elements that stand for themselves, the relationships, and
the instances, which are put off to the end. Elements are counted on the way, and every element,
relationship and instance knows the place of the declaration around it by that count. Nothing in the
tree of a model is passed over.
-/

namespace Blueprint.Declared

/-! ## What is gone through -/

/-- An element of a model, and the place among all elements of the nearest declaration around it
that is no group. -/
structure Occurrence where
  /-- The declaration. -/
  node : Element
  /-- The place of the declaration around it. -/
  outer : Option Nat

/-- A relationship of a model, and the place of the element in whose body it stands. -/
structure Mention where
  /-- The declaration. -/
  relationship : Relationship
  /-- The place of the element around it. -/
  outer : Option Nat

/-- An instance of a model, and the place of the deployment node in whose body it stands. -/
structure Deployment where
  /-- The declaration. -/
  deployed : Deployed
  /-- The relationships of its body. -/
  relationships : List Relationship
  /-- The place of the deployment node. -/
  outer : Option Nat

/-- What is met when a part of a model is gone through. -/
structure Traversal where
  /-- The elements that are no instances. -/
  nodes : List Occurrence := []
  /-- The relationships outside of instances. -/
  mentions : List Mention := []
  /-- The instances. -/
  deployments : List Deployment := []

/-- An instance as an element. -/
def Deployment.occurrence (deployment : Deployment) : Occurrence :=
  ⟨.deployed deployment.deployed deployment.relationships, deployment.outer⟩

/-- Relationships in the body of the element at a place. -/
def mentionsIn (outer : Option Nat) (relationships : List Relationship) : List Mention :=
  relationships.map (⟨·, outer⟩)

/-- The relationships of instances that stand one after the other from a place on. -/
def deployedMentions : Nat → List Deployment → List Mention
  | _, [] => []
  | place, deployment :: rest =>
    mentionsIn (some place) deployment.relationships ++ deployedMentions (place + 1) rest

namespace Traversal

instance : Append Traversal where
  append first second :=
    { nodes := first.nodes ++ second.nodes
      mentions := first.mentions ++ second.mentions
      deployments := first.deployments ++ second.deployments }

variable (first second : Traversal)

/-- The elements of two parts come one after the other. -/
@[simp] theorem nodes_append : (first ++ second).nodes = first.nodes ++ second.nodes := rfl

/-- The relationships of two parts come one after the other. -/
@[simp] theorem mentions_append :
    (first ++ second).mentions = first.mentions ++ second.mentions := rfl

/-- The instances of two parts come one after the other. -/
@[simp] theorem deployments_append :
    (first ++ second).deployments = first.deployments ++ second.deployments := rfl

/-- All elements in order, the instances last. -/
def occurrences (traversal : Traversal) : List Occurrence :=
  traversal.nodes ++ traversal.deployments.map Deployment.occurrence

/-- All relationships in order, those of the instances last. -/
def relationships (traversal : Traversal) : List Mention :=
  traversal.mentions ++ deployedMentions traversal.nodes.length traversal.deployments

end Traversal

mutual

/-- Goes through an element, given the place of the declaration around it and the count of elements
before it. The relationships of an environment come after its members, all others before. -/
def Element.traverse (outer : Option Nat) (count : Nat) : Element → Traversal
  | .plain sort details relationships members =>
    let own : Traversal :=
      { nodes := [⟨.plain sort details relationships members, outer⟩]
        mentions := mentionsIn (some count) relationships }
    own ++ Element.traverseAll (if sort = .group then outer else some count) (count + 1) members
  | .environment heading relationships members =>
    let own : Traversal := { nodes := [⟨.environment heading relationships members, outer⟩] }
    let after : Traversal := { mentions := mentionsIn (some count) relationships }
    own ++ Element.traverseAll (some count) (count + 1) members ++ after
  | .deployed deployment relationships => { deployments := [⟨deployment, relationships, outer⟩] }

/-- Goes through elements one after the other. -/
def Element.traverseAll (outer : Option Nat) (count : Nat) : List Element → Traversal
  | [] => {}
  | member :: members =>
    let first := Element.traverse outer count member
    first ++ Element.traverseAll outer (count + first.nodes.length) members

end

/-- Goes through an enterprise that may be missing, given the count of elements before it. -/
def Enterprise.traverse (count : Nat) : Option Enterprise → Traversal
  | some enterprise =>
    let after : Traversal := { mentions := mentionsIn none enterprise.relationships }
    Element.traverseAll none count enterprise.members ++ after
  | none => {}

/-- Goes through a model: people, software systems and groups, then the enterprise, then the
deployment environments. -/
def Model.traverse (model : Model) : Traversal :=
  let elements := Element.traverseAll none 0 model.elements
  let inside := Enterprise.traverse elements.nodes.length model.enterprise
  let environments :=
    Element.traverseAll none (elements ++ inside).nodes.length model.environments
  let after : Traversal := { mentions := mentionsIn none model.relationships }
  elements ++ inside ++ environments ++ after

/-- Goes through the model of a workspace, if there is one. -/
def Workspace.traverse (workspace : Workspace) : Traversal :=
  (workspace.model.map Model.traverse).getD {}

/-! ## Nothing is passed over -/

/-- The element that a node is. -/
def Node.element? : Node → Option Element
  | .element declared => some declared
  | _ => none

/-- The relationship that a node is. -/
def Node.relationship? : Node → Option Relationship
  | .relationship declared => some declared
  | _ => none

/-- What is met is what nodes are, in some order. -/
structure Traversal.Covers (traversal : Traversal) (nodes : List Node) : Prop where
  /-- The elements are those of the nodes. -/
  elements : (traversal.occurrences.map Occurrence.node).Perm (nodes.filterMap Node.element?)
  /-- The relationships are those of the nodes. -/
  relationships : (traversal.relationships.map Mention.relationship).Perm
    (nodes.filterMap Node.relationship?)

/-- The relationships of a body, whatever is around it. -/
theorem map_mentionsIn (outer : Option Nat) (relationships : List Relationship) :
    (mentionsIn outer relationships).map Mention.relationship = relationships := by
  unfold mentionsIn
  rw [List.map_map]
  exact List.map_id _

/-- The relationships of instances, wherever these stand. -/
theorem map_deployedMentions (place : Nat) (deployments : List Deployment) :
    (deployedMentions place deployments).map Mention.relationship =
      deployments.flatMap Deployment.relationships := by
  induction deployments generalizing place with
  | nil => rfl
  | cons deployment rest ih =>
    rw [deployedMentions, List.map_append, map_mentionsIn, ih, List.flatMap_cons]

/-- The elements that are met, without their places. -/
theorem Traversal.map_occurrences (traversal : Traversal) :
    traversal.occurrences.map Occurrence.node =
      traversal.nodes.map Occurrence.node ++
        traversal.deployments.map fun deployment => deployment.occurrence.node := by
  unfold occurrences
  rw [List.map_append, List.map_map]
  rfl

/-- The relationships that are met, without their places. -/
theorem Traversal.map_relationships (traversal : Traversal) :
    traversal.relationships.map Mention.relationship =
      traversal.mentions.map Mention.relationship ++
        traversal.deployments.flatMap Deployment.relationships := by
  unfold relationships
  rw [List.map_append, map_deployedMentions]

/-- Nothing covers no nodes. -/
theorem Traversal.covers_empty : Traversal.Covers {} [] := ⟨.nil, .nil⟩

/-- Two parts cover the nodes of both. -/
theorem Traversal.Covers.append {first second : Traversal} {nodes more : List Node}
    (h₁ : first.Covers nodes) (h₂ : second.Covers more) :
    (first ++ second).Covers (nodes ++ more) where
  elements := by
    have he := h₁.elements.append h₂.elements
    rw [map_occurrences, map_occurrences] at he
    rw [map_occurrences, List.filterMap_append]
    simp only [nodes_append, deployments_append, List.map_append]
    refine List.Perm.trans ?_ he
    rw [List.append_assoc, List.append_assoc, List.perm_append_left_iff, ← List.append_assoc,
      ← List.append_assoc, List.perm_append_right_iff]
    exact List.perm_append_comm
  relationships := by
    have he := h₁.relationships.append h₂.relationships
    rw [map_relationships, map_relationships] at he
    rw [map_relationships, List.filterMap_append]
    simp only [mentions_append, deployments_append, List.map_append, List.flatMap_append]
    refine List.Perm.trans ?_ he
    rw [List.append_assoc, List.append_assoc, List.perm_append_left_iff, ← List.append_assoc,
      ← List.append_assoc, List.perm_append_right_iff]
    exact List.perm_append_comm

/-- The order of nodes does not matter. -/
theorem Traversal.Covers.perm {traversal : Traversal} {nodes more : List Node}
    (h : traversal.Covers nodes) (hp : nodes.Perm more) : traversal.Covers more :=
  ⟨h.elements.trans (hp.filterMap _), h.relationships.trans (hp.filterMap _)⟩

/-- Relationships of a body cover their nodes. -/
theorem covers_mentionsIn (outer : Option Nat) (relationships : List Relationship) :
    Traversal.Covers { mentions := mentionsIn outer relationships }
      (relationships.map Node.relationship) where
  elements := by
    rw [List.filterMap_map]
    have hn : relationships.filterMap (Node.element? ∘ Node.relationship) = [] := by
      rw [List.filterMap_eq_nil_iff]
      intro relationship _
      rfl
    rw [hn]
    exact .nil
  relationships := by
    rw [List.filterMap_map, Traversal.map_relationships]
    dsimp only
    rw [map_mentionsIn, List.flatMap_nil, List.append_nil]
    have hs : relationships.filterMap (Node.relationship? ∘ Node.relationship) =
        relationships := List.filterMap_some
    rw [hs]

/-- An element that stands for itself covers its node. -/
theorem covers_node (node : Element) (outer : Option Nat) :
    Traversal.Covers { nodes := [⟨node, outer⟩] } [.element node] := ⟨.refl _, .nil⟩

mutual

/-- Going through an element passes none of its nodes over. -/
theorem Element.covers_traverse (outer : Option Nat) (count : Nat) :
    ∀ element : Element, (element.traverse outer count).Covers element.nodes
  | .plain sort details relationships members => by
    rw [traverse, nodes]
    have ho := (covers_node (.plain sort details relationships members) outer).append
      (covers_mentionsIn (some count) relationships)
    have ha := ho.append (Element.covers_traverseAll
      (if sort = .group then outer else some count) (count + 1) members)
    rw [List.append_assoc] at ha
    exact ha
  | .environment heading relationships members => by
    rw [traverse, nodes]
    have ho := (covers_node (.environment heading relationships members) outer).append
      (Element.covers_traverseAll (some count) (count + 1) members)
    have ha := ho.append (covers_mentionsIn (some count) relationships)
    rw [List.append_assoc] at ha
    exact ha
  | .deployed deployment relationships => by
    rw [traverse, nodes]
    have hm := covers_mentionsIn (some 0) relationships
    refine ⟨?_, ?_⟩
    · have he := hm.elements
      rw [List.filterMap_cons_some (by rfl), List.nil_perm.mp he]
      exact .refl _
    · have hr := hm.relationships
      rw [Traversal.map_relationships] at hr ⊢
      dsimp only at hr ⊢
      rw [map_mentionsIn, List.flatMap_nil, List.append_nil] at hr
      rw [List.filterMap_cons_none (by rfl), List.map_nil, List.nil_append, List.flatMap_cons,
        List.flatMap_nil, List.append_nil]
      exact hr

/-- Going through elements passes none of their nodes over. -/
theorem Element.covers_traverseAll (outer : Option Nat) (count : Nat) :
    ∀ members : List Element,
      (Element.traverseAll outer count members).Covers (Element.nodesOfList members)
  | [] => by
    rw [traverseAll, nodesOfList]
    exact Traversal.covers_empty
  | member :: members => by
    rw [traverseAll, nodesOfList]
    exact (Element.covers_traverse outer count member).append
      (Element.covers_traverseAll outer _ members)

end

/-- A node that is neither an element nor a relationship needs no cover. -/
theorem Traversal.Covers.cons {traversal : Traversal} {nodes : List Node} {node : Node}
    (h : traversal.Covers nodes) (he : node.element? = none) (hr : node.relationship? = none) :
    traversal.Covers (node :: nodes) where
  elements := by
    rw [List.filterMap_cons_none he]
    exact h.elements
  relationships := by
    rw [List.filterMap_cons_none hr]
    exact h.relationships

/-- The nodes of several elements are those of each. -/
theorem Element.nodesOfList_eq (members : List Element) :
    Element.nodesOfList members = members.flatMap Element.nodes := by
  induction members with
  | nil =>
    rw [nodesOfList]
    rfl
  | cons member members ih => rw [nodesOfList, ih, List.flatMap_cons]

/-- There are five ranks of members of a model. -/
theorem Element.rankInModel_le (member : Element) : member.rankInModel ≤ 4 := by
  unfold rankInModel
  split <;> omega

/-- The members of a model are listed by their ranks. -/
theorem Model.members_perm (model : Model) :
    (model.elements ++ model.environments).Perm
      ((model.members.filter fun member => decide (member.rankInModel < 3)) ++
        (model.members.filter fun member => member.rankInModel == 4) ++
        model.members.filter fun member => member.rankInModel == 3) := by
  have hsplit : model.elements.Perm
      ((model.members.filter fun member => decide (member.rankInModel < 3)) ++
        model.members.filter fun member => member.rankInModel == 3) := by
    have hp := List.filter_append_perm (fun member => decide (member.rankInModel < 3))
      model.elements
    unfold elements at hp ⊢
    rw [List.filter_filter, List.filter_filter] at hp
    refine hp.symm.trans (.of_eq ?_)
    congr 1
    · refine List.filter_congr fun member _ => ?_
      have hr := member.rankInModel_le
      rw [← Bool.decide_and, decide_eq_decide]
      omega
    · refine List.filter_congr fun member _ => ?_
      have hr := member.rankInModel_le
      rw [Bool.eq_iff_iff]
      simp only [Bool.and_eq_true, Bool.not_eq_true', decide_eq_false_iff_not, decide_eq_true_eq,
        beq_iff_eq]
      omega
  have henv : model.environments =
      model.members.filter fun member => member.rankInModel == 4 := by
    unfold environments
    refine List.filter_congr fun member _ => ?_
    rw [Bool.eq_iff_iff, decide_eq_true_eq, beq_iff_eq]
  rw [henv]
  refine (hsplit.append_right _).trans ?_
  rw [List.append_assoc, List.append_assoc, List.perm_append_left_iff]
  exact List.perm_append_comm

/-- Going through an enterprise passes none of its nodes over. -/
theorem Enterprise.covers_traverse (count : Nat) (enterprise : Option Enterprise) :
    (Enterprise.traverse count enterprise).Covers
      ((enterprise.map Enterprise.nodes).getD []) := by
  cases enterprise with
  | none => exact Traversal.covers_empty
  | some enterprise =>
    have ha := (Element.covers_traverseAll none count enterprise.members).append
      (covers_mentionsIn none enterprise.relationships)
    exact ha.cons rfl rfl

/-- Going through a model passes none of its nodes over. -/
theorem Model.covers_traverse (model : Model) : model.traverse.Covers model.nodes := by
  have hmembers : (Element.nodesOfList model.elements ++
      Element.nodesOfList model.environments).Perm
      (Element.nodesOfList
        ((model.members.filter fun member => decide (member.rankInModel < 3)) ++
          (model.members.filter fun member => member.rankInModel == 4) ++
          model.members.filter fun member => member.rankInModel == 3)) := by
    rw [Element.nodesOfList_eq, Element.nodesOfList_eq, Element.nodesOfList_eq,
      ← List.flatMap_append]
    exact model.members_perm.flatMap_right _
  have helements := Element.covers_traverseAll none 0 model.elements
  have hinside := Enterprise.covers_traverse
    (Element.traverseAll none 0 model.elements).nodes.length model.enterprise
  have henv := Element.covers_traverseAll none
    (Element.traverseAll none 0 model.elements ++ Enterprise.traverse
      (Element.traverseAll none 0 model.elements).nodes.length model.enterprise).nodes.length
    model.environments
  have hall := ((helements.append hinside).append henv).append
    (covers_mentionsIn none model.relationships)
  refine Traversal.Covers.cons (hall.perm ?_) rfl rfl
  refine List.Perm.append_right _ ?_
  refine List.Perm.trans ?_ (hmembers.append_right _)
  rw [List.append_assoc, List.append_assoc, List.perm_append_left_iff]
  exact List.perm_append_comm

end Blueprint.Declared
