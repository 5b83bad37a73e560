import Blueprint.Declared.View

/-!
# Declared workspaces

What a source declares, as it is written: the model, the views, their presentation, documentation
and decisions.
-/

namespace Blueprint.Declared

/-- A statement `!name value`. -/
structure Directive where
  /-- Where the statement starts. -/
  position : Option Position := none
  /-- The name, without the exclamation mark. -/
  name : String
  /-- The value. -/
  value : String := ""
  deriving DecidableEq, Repr

/-- A style for elements or relationships with a tag. -/
structure Style where
  /-- Where the statement starts. -/
  position : Option Position := none
  /-- The tag. -/
  tag : String
  /-- The properties of the style. -/
  properties : Properties := .empty
  deriving DecidableEq, Repr

/-- The block `styles`. -/
structure Styles where
  /-- Where the block starts. -/
  position : Option Position := none
  /-- The styles for elements. -/
  elements : List Style := []
  /-- The styles for relationships. -/
  relationships : List Style := []
  deriving DecidableEq, Repr

/-- A theme, by its address. -/
structure Theme where
  /-- Where the statement starts. -/
  position : Option Position := none
  /-- The address. -/
  url : String
  deriving DecidableEq, Repr

/-- The block `branding`. -/
structure Branding where
  /-- Where the block starts. -/
  position : Option Position := none
  /-- The logo. -/
  logo : Option String := none
  /-- The name of the font. -/
  fontName : Option String := none
  /-- The address of the font. -/
  fontUrl : Option String := none
  deriving DecidableEq, Repr

/-- The block `terminology`: what is written in place of a word. -/
structure Terminology where
  /-- Where the block starts. -/
  position : Option Position := none
  /-- The replacements. -/
  terms : Properties := .empty
  deriving DecidableEq, Repr

/-- A section of the documentation. -/
structure Section where
  /-- Where the section starts. -/
  position : Option Position := none
  /-- The title. -/
  title : String
  /-- The text. -/
  content : String := ""
  /-- The format of the text. -/
  format : String := "markdown"
  /-- The place among the sections. -/
  order : Option Int := none
  deriving DecidableEq, Repr

/-- The block `documentation`. -/
structure Documentation where
  /-- Where the block starts. -/
  position : Option Position := none
  /-- The text before the sections. -/
  content : Option String := none
  /-- The format of that text. -/
  format : String := "markdown"
  /-- The sections as they are written. -/
  sections : List Section := []
  deriving DecidableEq, Repr

/-- A record of a decision. -/
structure Decision where
  /-- Where the record starts. -/
  position : Option Position := none
  /-- The identifier. -/
  id : String
  /-- The title. -/
  title : String := ""
  /-- The date. -/
  date : Option String := none
  /-- The status. -/
  status : String := "Proposed"
  /-- The text. -/
  content : String := ""
  /-- The format of the text. -/
  format : String := "markdown"
  /-- How the decision relates to others, by their identifiers. -/
  links : Properties := .empty
  deriving DecidableEq, Repr

/-- Everything that a source declares. -/
structure Workspace where
  /-- Where the workspace starts. -/
  position : Option Position := none
  /-- The name. -/
  name : Option String := none
  /-- The description. -/
  description : Option String := none
  /-- The model. -/
  model : Option Model := none
  /-- The views. -/
  views : Option Views := none
  /-- The styles. -/
  styles : Option Styles := none
  /-- The themes. -/
  themes : List Theme := []
  /-- The branding. -/
  branding : Option Branding := none
  /-- The terminology. -/
  terminology : Option Terminology := none
  /-- The documentation. -/
  documentation : Option Documentation := none
  /-- The decisions. -/
  decisions : List Decision := []
  /-- Further properties. -/
  properties : Properties := .empty
  /-- Further settings. -/
  configuration : Properties := .empty
  /-- The directives. -/
  directives : List Directive := []
  deriving Repr

namespace Workspace

instance : Inhabited Workspace := ⟨{}⟩

/-- The value of the last directive with a name. -/
def directiveValue (workspace : Workspace) (name : String) : Option String :=
  (workspace.directives.reverse.find? fun directive => directive.name == name).map
    Directive.value

end Workspace

end Blueprint.Declared
