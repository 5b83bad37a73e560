import Blueprint.Json.Basic
import Blueprint.Resolved.Workspace

/-!
# Workspaces as JSON

Every field is written, in a fixed order, and maps are written as objects in the order of their
keys. An element says what sort it is of under `kind`.
-/

namespace Blueprint

/-- Texts under keys as an object. -/
def Properties.toJson (properties : Properties) : Json :=
  .object (properties.entries.map fun entry => (entry.1, .string entry.2))

end Blueprint

namespace Blueprint.Resolved

/-- What an element says it is. -/
def ElementSort.tag : ElementSort → String
  | .person _ => "person"
  | .softwareSystem _ => "softwareSystem"
  | .container _ => "container"
  | .component _ => "component"
  | .group => "group"
  | .deploymentEnvironment => "deploymentEnvironment"
  | .deploymentNode _ _ _ => "deploymentNode"
  | .infrastructureNode _ _ => "infrastructureNode"
  | .softwareSystemInstance _ _ _ => "softwareSystemInstance"
  | .containerInstance _ _ _ => "containerInstance"

/-- The members that only elements of a sort have. -/
def ElementSort.members : ElementSort → List (String × Json)
  | .person location => [("location", .ofText? location)]
  | .softwareSystem location => [("location", .ofText? location)]
  | .container technology => [("technology", .ofText? technology)]
  | .component technology => [("technology", .ofText? technology)]
  | .group => []
  | .deploymentEnvironment => []
  | .deploymentNode technology instances environment =>
    [("technology", .ofText? technology), ("instances", .ofText? instances),
     ("environment", .ofText? environment)]
  | .infrastructureNode technology environment =>
    [("technology", .ofText? technology), ("environment", .ofText? environment)]
  | .softwareSystemInstance deployed environment groups =>
    [("software_system_id", .string deployed), ("environment", .ofText? environment),
     ("deployment_groups", .ofTexts groups)]
  | .containerInstance deployed environment groups =>
    [("container_id", .string deployed), ("environment", .ofText? environment),
     ("deployment_groups", .ofTexts groups)]

/-- An element as an object. -/
def Element.toJson (element : Element) : Json :=
  .object ([
    ("id", .string element.id),
    ("name", .string element.name),
    ("description", .ofText? element.description),
    ("tags", .ofTexts element.tags),
    ("properties", element.properties.toJson),
    ("perspectives", element.perspectives.toJson),
    ("url", .ofText? element.url),
    ("parent_id", .ofText? element.parent),
    ("kind", .string element.sort.tag)] ++ element.sort.members)

/-- A relationship as an object. -/
def Relationship.toJson (relationship : Relationship) : Json :=
  .object [
    ("id", .string relationship.id),
    ("source_id", .string relationship.source),
    ("destination_id", .string relationship.destination),
    ("description", .ofText? relationship.description),
    ("technology", .ofText? relationship.technology),
    ("tags", .ofTexts relationship.tags),
    ("properties", relationship.properties.toJson),
    ("url", .ofText? relationship.url),
    ("implied", .bool relationship.implied)]

/-- A model as an object. -/
def Model.toJson (model : Model) : Json :=
  .object [
    ("elements", .array (model.elements.map Element.toJson)),
    ("relationships", .array (model.relationships.map Relationship.toJson)),
    ("enterprise", .ofText? model.enterprise)]

/-- A request for automatic layout as an object. -/
def AutoLayout.toJson (layout : AutoLayout) : Json :=
  .object [
    ("rank_direction", .ofText? layout.rankDirection),
    ("rank_separation", .ofInt? layout.rankSeparation),
    ("node_separation", .ofInt? layout.nodeSeparation)]

/-- An interaction as an object. -/
def Interaction.toJson (interaction : Interaction) : Json :=
  .object [
    ("order", .number interaction.order),
    ("source_id", .string interaction.source),
    ("destination_id", .string interaction.destination),
    ("description", .ofText? interaction.description),
    ("technology", .ofText? interaction.technology)]

/-- A view as an object. -/
def View.toJson (view : View) : Json :=
  .object [
    ("kind", .string view.kind.label),
    ("key", .string view.key),
    ("title", .ofText? view.title),
    ("description", .ofText? view.description),
    ("scope_id", .ofText? view.scope),
    ("environment", .ofText? view.environment),
    ("include_all", .bool view.includesAll),
    ("element_ids", .ofTexts view.elements),
    ("excluded_ids", .ofTexts view.excluded),
    ("expressions", .ofTexts view.expressions),
    ("excluded_expressions", .ofTexts view.excludedExpressions),
    ("auto_layout", (view.autoLayout.map AutoLayout.toJson).getD .null),
    ("animations", .array (view.animations.map .ofTexts)),
    ("steps", .array (view.interactions.map Interaction.toJson)),
    ("properties", view.properties.toJson),
    ("base_key", .ofText? view.baseKey),
    ("filter_mode", .ofText? view.filterMode),
    ("filter_tags", .ofTexts view.filterTags),
    ("content", .ofText? view.content),
    ("content_type", .ofText? view.contentType)]

/-- A section as an object. -/
def Section.toJson (part : Section) : Json :=
  .object [
    ("title", .string part.title),
    ("content", .string part.content),
    ("format", .string part.format),
    ("order", .number part.order)]

/-- The documentation as an object. -/
def Documentation.toJson (documentation : Documentation) : Json :=
  .object [
    ("content", .ofText? documentation.content),
    ("format", .string documentation.format),
    ("sections", .array (documentation.sections.map Section.toJson))]

/-- A decision as an object. -/
def Decision.toJson (decision : Decision) : Json :=
  .object [
    ("id", .string decision.id),
    ("title", .string decision.title),
    ("date", .ofText? decision.date),
    ("status", .string decision.status),
    ("content", .string decision.content),
    ("format", .string decision.format),
    ("links", decision.links.toJson)]

/-- A workspace as an object. -/
def Workspace.toJson (workspace : Workspace) : Json :=
  .object [
    ("name", .ofText? workspace.name),
    ("description", .ofText? workspace.description),
    ("model", workspace.model.toJson),
    ("views", .array (workspace.views.map View.toJson)),
    ("documentation", (workspace.documentation.map Documentation.toJson).getD .null),
    ("decisions", .array (workspace.decisions.map Decision.toJson)),
    ("properties", workspace.properties.toJson),
    ("configuration", workspace.configuration.toJson)]

end Blueprint.Resolved
