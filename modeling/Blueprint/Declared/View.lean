import Blueprint.Declared.Element

/-!
# Declared views

What a source declares about views, as it is written.
-/

namespace Blueprint.Declared

/-- An expression that a view includes or excludes. -/
structure Selection where
  /-- Where the statement starts. -/
  position : Option Position := none
  /-- The expression: a reference, a relationship between references, or `*`. -/
  expression : String
  deriving DecidableEq, Repr

/-- A request for automatic layout. -/
structure AutoLayout where
  /-- Where the statement starts. -/
  position : Option Position := none
  /-- The direction in which ranks follow each other. -/
  rankDirection : Option String := none
  /-- The distance between ranks. -/
  rankSeparation : Option Int := none
  /-- The distance between elements. -/
  nodeSeparation : Option Int := none
  deriving DecidableEq, Repr

/-- An animation: the references that each step reveals. -/
structure Animation where
  /-- Where the statement starts. -/
  position : Option Position := none
  /-- The steps. -/
  steps : List (List String) := []
  deriving DecidableEq, Repr

/-- What the declarations of all views have in common. -/
structure ViewDetails where
  /-- Where the declaration starts. -/
  position : Option Position := none
  /-- The key. -/
  key : Option String := none
  /-- The title. -/
  title : Option String := none
  /-- What the view is for. -/
  description : Option String := none
  /-- What the view includes. -/
  includes : List Selection := []
  /-- What the view excludes. -/
  excludes : List Selection := []
  /-- The automatic layout. -/
  autoLayout : Option AutoLayout := none
  /-- The animations. -/
  animations : List Animation := []
  /-- Further properties. -/
  properties : Properties := .empty
  deriving DecidableEq, Repr

/-- The sorts of views, with what only views of the sort have. -/
inductive ViewSort where
  /-- All people and software systems. -/
  | systemLandscape
  /-- The neighbourhood of a software system. -/
  | systemContext (system : String)
  /-- The containers of a software system. -/
  | container (system : String)
  /-- The components of a container. -/
  | component (container : String)
  /-- Interactions in order; the scope is a reference or `*`. -/
  | dynamic (scope : String) (steps : List Relationship)
  /-- What is deployed in an environment, of one software system or of all. -/
  | deployment (system : Option String) (environment : String)
  /-- A view restricted to elements with tags, or without them. -/
  | filtered (base : String) (mode : String) (tags : List String)
  /-- A view about anything. -/
  | custom
  /-- A picture; the scope is a reference or `*`. -/
  | image (scope : String) (content contentType : Option String)
  deriving DecidableEq, Repr

/-- The declaration of a view. -/
structure View where
  /-- What all views have. -/
  details : ViewDetails
  /-- What the view is about. -/
  sort : ViewSort
  deriving DecidableEq, Repr

namespace View

/-- The dynamic view with a further step; the other views have no steps. -/
def addStep (view : View) (step : Relationship) : View :=
  match view.sort with
  | .dynamic scope steps => { view with sort := .dynamic scope (steps ++ [step]) }
  | _ => view

/-- The rank of a view: views are built sort by sort. -/
def rank (view : View) : Nat :=
  match view.sort with
  | .systemLandscape => 0
  | .systemContext _ => 1
  | .container _ => 2
  | .component _ => 3
  | .dynamic _ _ => 4
  | .deployment _ _ => 5
  | .filtered _ _ _ => 6
  | .custom => 7
  | .image _ _ _ => 8

end View

/-- The block `views`. -/
structure Views where
  /-- Where the block starts. -/
  position : Option Position := none
  /-- The views in the order in which they are built. -/
  views : List View := []
  /-- Further settings. -/
  configuration : Properties := .empty
  deriving DecidableEq, Repr

namespace Views

/-- The views with one more, at its place. -/
def insertView (block : Views) (view : View) : Views :=
  { block with views := insertByRank View.rank view block.views }

end Views

end Blueprint.Declared
