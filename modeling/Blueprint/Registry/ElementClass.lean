/-!
# Classes of elements
-/

namespace Blueprint

/-- What an element is. The class of plain elements has all other classes below it. -/
inductive ElementClass where
  | element | person | softwareSystem | container | component | group | deploymentEnvironment
  | deploymentNode | infrastructureNode | softwareSystemInstance | containerInstance
  deriving DecidableEq, Repr, Inhabited

namespace ElementClass

/-- All classes. -/
def all : List ElementClass :=
  [.element, .person, .softwareSystem, .container, .component, .group, .deploymentEnvironment,
   .deploymentNode, .infrastructureNode, .softwareSystemInstance, .containerInstance]

/-- The name of a class in messages. -/
def label : ElementClass → String
  | .element => "Element"
  | .person => "Person"
  | .softwareSystem => "SoftwareSystem"
  | .container => "Container"
  | .component => "Component"
  | .group => "Group"
  | .deploymentEnvironment => "DeploymentEnvironment"
  | .deploymentNode => "DeploymentNode"
  | .infrastructureNode => "InfrastructureNode"
  | .softwareSystemInstance => "SoftwareSystemInstance"
  | .containerInstance => "ContainerInstance"

/-- The class with a name. -/
def ofLabel? (label : String) : Option ElementClass :=
  all.find? fun c => c.label == label

/-- Whether the members of one class are members of another. -/
def isA (c wanted : ElementClass) : Bool :=
  wanted == .element || c == wanted

/-- Every class is a class of elements. -/
@[simp] theorem isA_element (c : ElementClass) : c.isA .element = true := by
  simp [isA]

/-- Every class is its own. -/
@[simp] theorem isA_self (c : ElementClass) : c.isA c = true := by
  simp [isA]

end ElementClass

end Blueprint
