import Blueprint.Declared.Element
import Blueprint.Registry.Basic

/-!
# Elements and relationships of a workspace

In a resolved workspace elements refer to each other by their identifiers.
-/

namespace Blueprint.Resolved

/-- The sorts of elements, with what only elements of the sort have. -/
inductive ElementSort where
  /-- A person, inside or outside of the enterprise. -/
  | person (location : Option String)
  /-- A software system, inside or outside of the enterprise. -/
  | softwareSystem (location : Option String)
  /-- A part of a software system that is deployed by itself. -/
  | container (technology : Option String)
  /-- A part of a container. -/
  | component (technology : Option String)
  /-- A named group of elements, which keep their parent. -/
  | group
  /-- A deployment environment. -/
  | deploymentEnvironment
  /-- A place where instances run, in a given number of copies. -/
  | deploymentNode (technology instances environment : Option String)
  /-- A part of the infrastructure. -/
  | infrastructureNode (technology environment : Option String)
  /-- A software system on a deployment node. -/
  | softwareSystemInstance (system : String) (environment : Option String)
      (groups : List String)
  /-- A container on a deployment node. -/
  | containerInstance (container : String) (environment : Option String) (groups : List String)
  deriving DecidableEq, Repr

namespace ElementSort

/-- The class of the elements of a sort. -/
def kind : ElementSort → ElementClass
  | .person _ => ElementClass.person
  | .softwareSystem _ => ElementClass.softwareSystem
  | .container _ => ElementClass.container
  | .component _ => ElementClass.component
  | .group => ElementClass.group
  | .deploymentEnvironment => ElementClass.deploymentEnvironment
  | .deploymentNode _ _ _ => ElementClass.deploymentNode
  | .infrastructureNode _ _ => ElementClass.infrastructureNode
  | .softwareSystemInstance _ _ _ => ElementClass.softwareSystemInstance
  | .containerInstance _ _ _ => ElementClass.containerInstance

end ElementSort

/-- An element of a workspace. -/
structure Element where
  /-- The identifier. -/
  id : String
  /-- The name. -/
  name : String
  /-- What the element is for. -/
  description : Option String := none
  /-- The tags. -/
  tags : List String := []
  /-- Further properties. -/
  properties : Properties := .empty
  /-- Remarks from different points of view. -/
  perspectives : Properties := .empty
  /-- An address with more about it. -/
  url : Option String := none
  /-- The identifier of the element around it. -/
  parent : Option String := none
  /-- The sort, with what only elements of the sort have. -/
  sort : ElementSort
  deriving DecidableEq, Repr

namespace Element

/-- The class of an element. -/
def kind (element : Element) : ElementClass := element.sort.kind

/-- What the registry knows of an element. -/
def entry (element : Element) : Entry :=
  ⟨element.id, element.name, element.parent, element.kind⟩

end Element

/-- A relationship between two elements. -/
structure Relationship where
  /-- The identifier. -/
  id : String
  /-- The element that the relationship starts at. -/
  source : String
  /-- The element that the relationship leads to. -/
  destination : String
  /-- What the relationship is for. -/
  description : Option String := none
  /-- How the relationship is realised. -/
  technology : Option String := none
  /-- The tags. -/
  tags : List String := []
  /-- Further properties. -/
  properties : Properties := .empty
  /-- An address with more about it. -/
  url : Option String := none
  /-- Whether it follows from a relationship between parts of the two elements. -/
  implied : Bool := false
  deriving DecidableEq, Repr

end Blueprint.Resolved
