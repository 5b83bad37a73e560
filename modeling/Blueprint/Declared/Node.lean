import Blueprint.Declared.Workspace

/-!
# The nodes of a declared workspace

All parts of a declared workspace that have a place of their own, as nodes of one tree. The tree is
listed depth first, each node before its parts.
-/

namespace Blueprint.Declared

/-- What a node is. -/
inductive NodeKind where
  | workspace | model | person | softwareSystem | container | component | deploymentEnvironment
  | deploymentNode | infrastructureNode | softwareSystemInstance | containerInstance | group
  | enterprise | relationship | directive | views | systemLandscapeView | systemContextView
  | containerView | componentView | dynamicView | deploymentView | filteredView | customView
  | imageView | inclusion | exclusion | autoLayout | animation | styles | elementStyle
  | relationshipStyle | theme | branding | terminology | documentation | documentationSection
  | decision
  deriving DecidableEq, Repr

/-- The name of the nodes of a kind. -/
def NodeKind.name : NodeKind → String
  | .workspace => "WorkspaceNode"
  | .model => "ModelNode"
  | .person => "PersonNode"
  | .softwareSystem => "SoftwareSystemNode"
  | .container => "ContainerNode"
  | .component => "ComponentNode"
  | .deploymentEnvironment => "DeploymentEnvironmentNode"
  | .deploymentNode => "DeploymentNodeNode"
  | .infrastructureNode => "InfrastructureNodeNode"
  | .softwareSystemInstance => "SoftwareSystemInstanceNode"
  | .containerInstance => "ContainerInstanceNode"
  | .group => "GroupNode"
  | .enterprise => "EnterpriseNode"
  | .relationship => "RelationshipNode"
  | .directive => "DirectiveNode"
  | .views => "ViewsNode"
  | .systemLandscapeView => "SystemLandscapeViewNode"
  | .systemContextView => "SystemContextViewNode"
  | .containerView => "ContainerViewNode"
  | .componentView => "ComponentViewNode"
  | .dynamicView => "DynamicViewNode"
  | .deploymentView => "DeploymentViewNode"
  | .filteredView => "FilteredViewNode"
  | .customView => "CustomViewNode"
  | .imageView => "ImageViewNode"
  | .inclusion => "IncludeNode"
  | .exclusion => "ExcludeNode"
  | .autoLayout => "AutoLayoutNode"
  | .animation => "AnimationNode"
  | .styles => "StylesNode"
  | .elementStyle => "ElementStyleNode"
  | .relationshipStyle => "RelationshipStyleNode"
  | .theme => "ThemeNode"
  | .branding => "BrandingNode"
  | .terminology => "TerminologyNode"
  | .documentation => "DocumentationNode"
  | .documentationSection => "DocumentationSectionNode"
  | .decision => "DecisionNode"

/-- The method of a visitor that takes the nodes of a kind. -/
def NodeKind.method : NodeKind → String
  | .workspace => "visit_workspace"
  | .model => "visit_model"
  | .person => "visit_person"
  | .softwareSystem => "visit_software_system"
  | .container => "visit_container"
  | .component => "visit_component"
  | .deploymentEnvironment => "visit_deployment_environment"
  | .deploymentNode => "visit_deployment_node"
  | .infrastructureNode => "visit_infrastructure_node"
  | .softwareSystemInstance => "visit_software_system_instance"
  | .containerInstance => "visit_container_instance"
  | .group => "visit_group"
  | .enterprise => "visit_enterprise"
  | .relationship => "visit_relationship"
  | .directive => "visit_directive"
  | .views => "visit_views"
  | .systemLandscapeView => "visit_system_landscape_view"
  | .systemContextView => "visit_system_context_view"
  | .containerView => "visit_container_view"
  | .componentView => "visit_component_view"
  | .dynamicView => "visit_dynamic_view"
  | .deploymentView => "visit_deployment_view"
  | .filteredView => "visit_filtered_view"
  | .customView => "visit_custom_view"
  | .imageView => "visit_image_view"
  | .inclusion => "visit_include"
  | .exclusion => "visit_exclude"
  | .autoLayout => "visit_auto_layout"
  | .animation => "visit_animation"
  | .styles => "visit_styles"
  | .elementStyle => "visit_element_style"
  | .relationshipStyle => "visit_relationship_style"
  | .theme => "visit_theme"
  | .branding => "visit_branding"
  | .terminology => "visit_terminology"
  | .documentation => "visit_documentation"
  | .documentationSection => "visit_documentation_section"
  | .decision => "visit_decision"

/-- What is said of a node that no method takes, because its kind is none of these. -/
def unvisited (name : String) : String := name ++ " does not implement accept()"

/-- A part of a declared workspace. -/
inductive Node where
  | workspace (workspace : Workspace)
  | model (model : Model)
  | element (element : Element)
  | enterprise (enterprise : Enterprise)
  | relationship (relationship : Relationship)
  | directive (directive : Directive)
  | views (views : Views)
  | view (view : View)
  | inclusion (selection : Selection)
  | exclusion (selection : Selection)
  | autoLayout (layout : AutoLayout)
  | animation (animation : Animation)
  | styles (styles : Styles)
  | elementStyle (style : Style)
  | relationshipStyle (style : Style)
  | theme (theme : Theme)
  | branding (branding : Branding)
  | terminology (terminology : Terminology)
  | documentation (documentation : Documentation)
  | documentationSection (part : Section)
  | decision (decision : Decision)

/-- What an element is as a node. -/
def Element.kind : Element → NodeKind
  | .plain sort _ _ _ =>
    match sort with
    | .person _ => .person
    | .softwareSystem _ => .softwareSystem
    | .container _ => .container
    | .component _ => .component
    | .group => .group
    | .deploymentNode _ _ => .deploymentNode
    | .infrastructureNode _ => .infrastructureNode
  | .environment _ _ _ => .deploymentEnvironment
  | .deployed deployment _ =>
    match deployment.instanceOf with
    | .softwareSystem => .softwareSystemInstance
    | .container => .containerInstance

/-- What a view is as a node. -/
def View.kind (view : View) : NodeKind :=
  match view.sort with
  | .systemLandscape => .systemLandscapeView
  | .systemContext _ => .systemContextView
  | .container _ => .containerView
  | .component _ => .componentView
  | .dynamic _ _ => .dynamicView
  | .deployment _ _ => .deploymentView
  | .filtered _ _ _ => .filteredView
  | .custom => .customView
  | .image _ _ _ => .imageView

/-- What a node is. -/
def Node.kind : Node → NodeKind
  | .workspace _ => .workspace
  | .model _ => .model
  | .element declared => declared.kind
  | .enterprise _ => .enterprise
  | .relationship _ => .relationship
  | .directive _ => .directive
  | .views _ => .views
  | .view declared => declared.kind
  | .inclusion _ => .inclusion
  | .exclusion _ => .exclusion
  | .autoLayout _ => .autoLayout
  | .animation _ => .animation
  | .styles _ => .styles
  | .elementStyle _ => .elementStyle
  | .relationshipStyle _ => .relationshipStyle
  | .theme _ => .theme
  | .branding _ => .branding
  | .terminology _ => .terminology
  | .documentation _ => .documentation
  | .documentationSection _ => .documentationSection
  | .decision _ => .decision

mutual

/-- The nodes of an element: relationships come before members, except in an environment. -/
def Element.nodes : Element → List Node
  | .plain sort details relationships members =>
    .element (.plain sort details relationships members) ::
      (relationships.map Node.relationship ++ Element.nodesOfList members)
  | .environment heading relationships members =>
    .element (.environment heading relationships members) ::
      (Element.nodesOfList members ++ relationships.map Node.relationship)
  | .deployed deployment relationships =>
    .element (.deployed deployment relationships) :: relationships.map Node.relationship

/-- The nodes of several elements. -/
def Element.nodesOfList : List Element → List Node
  | [] => []
  | element :: rest => Element.nodes element ++ Element.nodesOfList rest

end

/-- The nodes of an enterprise. -/
def Enterprise.nodes (enterprise : Enterprise) : List Node :=
  .enterprise enterprise ::
    (Element.nodesOfList enterprise.members ++ enterprise.relationships.map Node.relationship)

/-- The nodes of a model: groups are listed after the environments, and the enterprise after
them. -/
def Model.nodes (model : Model) : List Node :=
  let ranked := fun (wanted : Nat → Bool) =>
    model.members.filter fun member => wanted member.rankInModel
  .model model ::
    (Element.nodesOfList
        (ranked (· < 3) ++ ranked (· == 4) ++ ranked (· == 3)) ++
      (model.enterprise.map Enterprise.nodes).getD [] ++
      model.relationships.map Node.relationship)

/-- The nodes of a view. -/
def View.nodes (view : View) : List Node :=
  let steps := match view.sort with
    | .dynamic _ steps => steps.map Node.relationship
    | _ => []
  .view view ::
    (view.details.includes.map Node.inclusion ++ view.details.excludes.map Node.exclusion ++
      (view.details.autoLayout.map Node.autoLayout).toList ++
      view.details.animations.map Node.animation ++ steps)

/-- The nodes of a workspace, the workspace first. -/
def Workspace.nodes (workspace : Workspace) : List Node :=
  let views := match workspace.views with
    | some block => .views block :: block.views.flatMap View.nodes
    | none => []
  let styles := match workspace.styles with
    | some block => .styles block ::
        (block.elements.map Node.elementStyle ++ block.relationships.map Node.relationshipStyle)
    | none => []
  let documentation := match workspace.documentation with
    | some block => .documentation block :: block.sections.map Node.documentationSection
    | none => []
  .workspace workspace ::
    ((workspace.model.map Model.nodes).getD [] ++ views ++ styles ++
      workspace.themes.map Node.theme ++ (workspace.branding.map Node.branding).toList ++
      (workspace.terminology.map Node.terminology).toList ++ documentation ++
      workspace.decisions.map Node.decision ++ workspace.directives.map Node.directive)

end Blueprint.Declared
