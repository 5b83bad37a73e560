import Blueprint.Build.Documentation
import Blueprint.Build.Relationship
import Blueprint.Build.View
import Blueprint.Text.Case

/-!
# Building a workspace

What a source declares becomes a workspace in which all references are bound: first the elements,
then the instances, the relationships, the views, and the documentation and decisions. What cannot
be bound is reported and left out.
-/

namespace Blueprint.Build

open Resolved (Model)

/-- Directives that name other files, which are not read. -/
def fileDirectives : List String := ["include", "docs", "adrs"]

/-- Reports the directives that name other files. -/
def checkDirectives : List Declared.Directive → Reported Unit
  | [] => pure ()
  | directive :: rest => do
    if directive.name ∈ fileDirectives then
      Reported.report (.build (.unsupportedDirective directive.name directive.value))
        directive.position
    checkDirectives rest

/-- Whether identifiers start with those of the elements around them. -/
def isHierarchical (declared : Declared.Workspace) : Bool :=
  declared.directiveValue "identifiers" == some "hierarchical"

/-- Whether a directive turns implied relationships off. -/
def forbidsImplied (declared : Declared.Workspace) : Bool :=
  (declared.directiveValue "impliedRelationships").any fun value => Text.lower value == "false"

/-- Registers the elements of a model that may be missing; instances wait. -/
def registerDeclared (hierarchical : Bool) : Option Declared.Model → Reported Draft
  | some model => registerModel hierarchical {} model
  | none => pure {}

/-- Registers all elements of a workspace, instances included. -/
def registerAll (declared : Declared.Workspace) : Reported Draft := do
  let draft ← registerDeclared (isHierarchical declared) declared.model
  registerInstances draft draft.instances

/-- Builds the model from the registered elements. -/
def buildModel (declared : Declared.Workspace) (draft : Draft) (implied : Bool) :
    Reported Model := do
  let relationships ← resolveRelationships draft.registry [] draft.relationships
  let model : Model :=
    { elements := draft.elements, relationships
      enterprise := declared.model.bind fun model =>
        model.enterprise.map Declared.Enterprise.name }
  return if implied && !forbidsImplied declared then addAllImplied model else model

/-- Binds the views of a block that may be missing. -/
def bindDeclared (registry : Registry) :
    Option Declared.Views → Reported (List Resolved.View)
  | some block => bindBlock registry block
  | none => pure []

/-- Builds a workspace, with the relationships that others imply if wanted, and yields the registry
of its elements too. -/
def buildWith (declared : Declared.Workspace) (implied : Bool) :
    Reported (Resolved.Workspace × Registry) := do
  checkDirectives declared.directives
  let draft ← registerAll declared
  let model ← buildModel declared draft implied
  let views ← bindDeclared draft.registry declared.views
  let decisions ← addDecisions [] declared.decisions
  checkLinks decisions
  return (
    { name := declared.name
      description := declared.description
      model
      views
      documentation := declared.documentation.map makeDocumentation
      decisions
      properties := declared.properties
      configuration := declared.configuration },
    draft.registry)

/-- Builds a workspace. -/
def build (declared : Declared.Workspace) (implied : Bool) : Reported Resolved.Workspace := do
  let (workspace, _) ← buildWith declared implied
  return workspace

end Blueprint.Build
