import Blueprint.OrderedMap
import Blueprint.Source.Position

/-!
# Declared elements

What a source declares about the elements of a model, as it is written: references are texts, and
nothing is checked against other declarations. The members of an element stand in the order in which
they are built: by rank, and members of one rank as they are written.
-/

namespace Blueprint

/-- Texts under keys, in the order of the keys. -/
abbrev Properties := OrderedMap String String

/-- Puts an item behind all items of its rank or a lower one. -/
def insertByRank {α : Type} (rank : α → Nat) (item : α) (items : List α) : List α :=
  items.takeWhile (fun other => decide (rank other ≤ rank item)) ++
    item :: items.dropWhile fun other => decide (rank other ≤ rank item)

/-- Inserting an item adds it and nothing else. -/
theorem insertByRank_perm {α : Type} (rank : α → Nat) (item : α) (items : List α) :
    (insertByRank rank item items).Perm (item :: items) := by
  unfold insertByRank
  refine List.perm_middle.trans ?_
  rw [List.takeWhile_append_dropWhile]

/-- One item more, at the place of its rank, is one more item. -/
theorem forall_mem_insertByRank {α : Type} {good : α → Prop} (rank : α → Nat) (item : α)
    (items : List α) :
    (∀ other ∈ insertByRank rank item items, good other) ↔
      good item ∧ ∀ other ∈ items, good other := by
  simp only [(insertByRank_perm rank item items).mem_iff, List.forall_mem_cons]

end Blueprint

namespace Blueprint.Declared

/-- A statement `source -> destination`. A relationship written without a source has the source
`this`. -/
structure Relationship where
  /-- Where the statement starts. -/
  position : Option Position := none
  /-- The element that the relationship starts at. -/
  source : String
  /-- The element that the relationship leads to. -/
  destination : String
  /-- The identifier given to the relationship. -/
  identifier : Option String := none
  /-- What the relationship is for. -/
  description : Option String := none
  /-- How the relationship is realised. -/
  technology : Option String := none
  /-- The tags. -/
  tags : List String := []
  /-- Further properties. -/
  properties : Properties := .empty
  /-- An address with more about it. -/
  url : Option String := none
  deriving DecidableEq, Repr

/-- What the declarations of all plain elements have in common. -/
structure Details where
  /-- Where the declaration starts. -/
  position : Option Position := none
  /-- The identifier given to the element. -/
  identifier : Option String := none
  /-- The name. -/
  name : String
  /-- What the element is for. -/
  description : Option String := none
  /-- The tags. -/
  tags : List String := []
  /-- Further properties. -/
  properties : Properties := .empty
  /-- Remarks from different points of view. -/
  perspectives : Properties := .empty
  /-- An address with more about it. -/
  url : Option String := none
  deriving DecidableEq, Repr

/-- The sorts of plain elements, with what only elements of the sort have. -/
inductive PlainSort where
  /-- A person, inside or outside of the enterprise. -/
  | person (location : Option String)
  /-- A software system, inside or outside of the enterprise. -/
  | softwareSystem (location : Option String)
  /-- A part of a software system that is deployed by itself. -/
  | container (technology : Option String)
  /-- A part of a container. -/
  | component (technology : Option String)
  /-- A named group of elements. -/
  | group
  /-- A place where instances run, in a given number of copies. -/
  | deploymentNode (technology instances : Option String)
  /-- A part of the infrastructure. -/
  | infrastructureNode (technology : Option String)
  deriving DecidableEq, Repr

/-- The declaration of a deployment environment. -/
structure Environment where
  /-- Where the declaration starts. -/
  position : Option Position := none
  /-- The identifier given to the environment. -/
  identifier : Option String := none
  /-- The name. -/
  name : String
  deriving DecidableEq, Repr

/-- What an instance is an instance of. -/
inductive InstanceOf where
  | softwareSystem
  | container
  deriving DecidableEq, Repr

/-- The declaration of an instance of a software system or container on a deployment node. -/
structure Deployed where
  /-- Where the declaration starts. -/
  position : Option Position := none
  /-- The identifier given to the instance. -/
  identifier : Option String := none
  /-- What sort of element is deployed. -/
  instanceOf : InstanceOf
  /-- The element that is deployed. -/
  reference : String
  /-- The deployment groups. -/
  groups : List String := []
  /-- The tags. -/
  tags : List String := []
  /-- Further properties. -/
  properties : Properties := .empty
  deriving DecidableEq, Repr

/-- The declaration of an element with its body. -/
inductive Element where
  /-- A plain element. -/
  | plain (sort : PlainSort) (details : Details) (relationships : List Relationship)
      (members : List Element)
  /-- A deployment environment. -/
  | environment (heading : Environment) (relationships : List Relationship)
      (members : List Element)
  /-- A deployed instance. -/
  | deployed (deployment : Deployed) (relationships : List Relationship)
  deriving Repr

namespace Element

instance : Inhabited Element := ⟨.environment { name := "" } [] []⟩

/-- Where the declaration starts. -/
def position : Element → Option Position
  | .plain _ details _ _ => details.position
  | .environment heading _ _ => heading.position
  | .deployed deployment _ => deployment.position

/-- The identifier given to the element. -/
def identifier : Element → Option String
  | .plain _ details _ _ => details.identifier
  | .environment heading _ _ => heading.identifier
  | .deployed deployment _ => deployment.identifier

/-- The relationships declared in the body. -/
def relationships : Element → List Relationship
  | .plain _ _ relationships _ => relationships
  | .environment _ relationships _ => relationships
  | .deployed _ relationships => relationships

/-- The elements declared in the body, in the order in which they are built. -/
def members : Element → List Element
  | .plain _ _ _ members => members
  | .environment _ _ members => members
  | .deployed _ _ => []

/-- The rank of a member of a model: people come first, then software systems, other elements,
groups, and deployment environments. -/
def rankInModel : Element → Nat
  | .plain (.person _) _ _ _ => 0
  | .plain (.softwareSystem _) _ _ _ => 1
  | .plain .group _ _ _ => 3
  | .environment _ _ _ => 4
  | _ => 2

/-- The rank of a member of an element: plain members come first, then groups and parts of the
infrastructure, and instances of software systems before those of containers. -/
def rankInElement : Element → Nat
  | .plain .group _ _ _ => 1
  | .plain (.infrastructureNode _) _ _ _ => 1
  | .deployed deployment _ =>
    match deployment.instanceOf with
    | .softwareSystem => 2
    | .container => 3
  | _ => 0

/-- The members with one more, at its place. The members of a group keep the order in which they are
written. -/
def insertMember (owner member : Element) : Element :=
  match owner with
  | .plain .group details relationships members =>
    .plain .group details relationships (members ++ [member])
  | .plain sort details relationships members =>
    .plain sort details relationships (insertByRank rankInElement member members)
  | .environment heading relationships members =>
    .environment heading relationships (members ++ [member])
  | .deployed deployment relationships => .deployed deployment relationships

/-- One more relationship in the body. -/
def insertRelationship (owner : Element) (relationship : Relationship) : Element :=
  match owner with
  | .plain sort details relationships members =>
    .plain sort details (relationships ++ [relationship]) members
  | .environment heading relationships members =>
    .environment heading (relationships ++ [relationship]) members
  | .deployed deployment relationships =>
    .deployed deployment (relationships ++ [relationship])

end Element

/-- The boundary of the enterprise; its members belong to the model. -/
structure Enterprise where
  /-- Where the declaration starts. -/
  position : Option Position := none
  /-- The name. -/
  name : String
  /-- The elements inside, as they are written. -/
  members : List Element := []
  /-- The relationships declared in the body. -/
  relationships : List Relationship := []
  deriving Repr

/-- The block `model`. -/
structure Model where
  /-- Where the block starts. -/
  position : Option Position := none
  /-- The elements of the block, in the order in which they are built. -/
  members : List Element := []
  /-- The boundary of the enterprise; it is built before the environments. -/
  enterprise : Option Enterprise := none
  /-- The relationships of the block. -/
  relationships : List Relationship := []
  /-- Further properties. -/
  properties : Properties := .empty
  deriving Repr

namespace Model

/-- The members of the block with one more, at its place. -/
def insertMember (model : Model) (member : Element) : Model :=
  { model with members := insertByRank Element.rankInModel member model.members }

/-- The members that are no deployment environments. -/
def elements (model : Model) : List Element :=
  model.members.filter fun member => decide (member.rankInModel ≠ 4)

/-- The deployment environments. -/
def environments (model : Model) : List Element :=
  model.members.filter fun member => decide (member.rankInModel = 4)

end Model

end Blueprint.Declared
