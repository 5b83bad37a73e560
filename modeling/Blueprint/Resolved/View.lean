import Blueprint.Declared.Element

/-!
# Views of a workspace

In a resolved view, references are bound to the identifiers of elements.
-/

namespace Blueprint.Resolved

/-- The kinds of views. -/
inductive ViewKind where
  | systemLandscape | systemContext | container | component | dynamic | deployment | filtered
  | custom | image
  deriving DecidableEq, Repr

namespace ViewKind

/-- All kinds. -/
def all : List ViewKind :=
  [.systemLandscape, .systemContext, .container, .component, .dynamic, .deployment, .filtered,
   .custom, .image]

/-- The name of a kind. -/
def label : ViewKind → String
  | .systemLandscape => "systemLandscape"
  | .systemContext => "systemContext"
  | .container => "container"
  | .component => "component"
  | .dynamic => "dynamic"
  | .deployment => "deployment"
  | .filtered => "filtered"
  | .custom => "custom"
  | .image => "image"

/-- The kind with a name. -/
def ofLabel? (label : String) : Option ViewKind :=
  all.find? fun kind => kind.label == label

/-- A kind is found by its name. -/
theorem ofLabel?_label (kind : ViewKind) : ofLabel? kind.label = some kind := by
  cases kind <;> decide

end ViewKind

/-- A request for automatic layout. -/
structure AutoLayout where
  /-- The direction in which ranks follow each other. -/
  rankDirection : Option String := none
  /-- The distance between ranks. -/
  rankSeparation : Option Int := none
  /-- The distance between elements. -/
  nodeSeparation : Option Int := none
  deriving DecidableEq, Repr

/-- An interaction of a dynamic view. -/
structure Interaction where
  /-- The number. -/
  order : Int
  /-- The element that acts. -/
  source : String
  /-- The element that is acted on. -/
  destination : String
  /-- What the interaction is for. -/
  description : Option String := none
  /-- How the interaction is realised. -/
  technology : Option String := none
  deriving DecidableEq, Repr

/-- A view. -/
structure View where
  /-- The kind. -/
  kind : ViewKind
  /-- The key. -/
  key : String
  /-- The title. -/
  title : Option String := none
  /-- What the view is for. -/
  description : Option String := none
  /-- The element that the view is about. -/
  scope : Option String := none
  /-- The name of the deployment environment. -/
  environment : Option String := none
  /-- Whether the view includes everything in its scope. -/
  includesAll : Bool := false
  /-- The elements that the view includes. -/
  elements : List String := []
  /-- The elements that the view excludes. -/
  excluded : List String := []
  /-- The expressions that the view includes, as they are written. -/
  expressions : List String := []
  /-- The expressions that the view excludes, as they are written. -/
  excludedExpressions : List String := []
  /-- The automatic layout. -/
  autoLayout : Option AutoLayout := none
  /-- The elements that each step of the animations reveals. -/
  animations : List (List String) := []
  /-- The interactions of a dynamic view. -/
  interactions : List Interaction := []
  /-- Further properties. -/
  properties : Properties := .empty
  /-- The key of the view that a filtered view is based on. -/
  baseKey : Option String := none
  /-- Whether a filtered view keeps or drops the elements with its tags. -/
  filterMode : Option String := none
  /-- The tags of a filtered view. -/
  filterTags : List String := []
  /-- The picture. -/
  content : Option String := none
  /-- The format of the picture. -/
  contentType : Option String := none
  deriving DecidableEq, Repr

end Blueprint.Resolved
