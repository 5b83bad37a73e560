import Blueprint.Resolved.Model
import Blueprint.Resolved.View

/-!
# Workspaces

A resolved workspace: the model, the views, documentation and decisions.
-/

namespace Blueprint.Resolved

/-- A section of the documentation. -/
structure Section where
  /-- The title. -/
  title : String
  /-- The text. -/
  content : String := ""
  /-- The format of the text. -/
  format : String := "markdown"
  /-- The place among the sections. -/
  order : Int := 0
  deriving DecidableEq, Repr

/-- The documentation: text and sections in order. -/
structure Documentation where
  /-- The text before the sections. -/
  content : Option String := none
  /-- The format of that text. -/
  format : String := "markdown"
  /-- The sections. -/
  sections : List Section := []
  deriving DecidableEq, Repr

/-- A record of a decision. -/
structure Decision where
  /-- The identifier. -/
  id : String
  /-- The title. -/
  title : String := ""
  /-- The date. -/
  date : Option String := none
  /-- The status. -/
  status : String := "Proposed"
  /-- The text. -/
  content : String := ""
  /-- The format of the text. -/
  format : String := "markdown"
  /-- How the decision relates to others, by their identifiers. -/
  links : Properties := .empty
  deriving DecidableEq, Repr

/-- A workspace in which all references are resolved. -/
structure Workspace where
  /-- The name. -/
  name : Option String := none
  /-- The description. -/
  description : Option String := none
  /-- The model. -/
  model : Model := {}
  /-- The views. -/
  views : List View := []
  /-- The documentation. -/
  documentation : Option Documentation := none
  /-- The decisions. -/
  decisions : List Decision := []
  /-- Further properties. -/
  properties : Properties := .empty
  /-- Further settings. -/
  configuration : Properties := .empty
  deriving DecidableEq, Repr

instance : Inhabited Workspace := ⟨{}⟩

end Blueprint.Resolved
