import Blueprint.Json.Checked
import Blueprint.Resolved.Workspace

/-!
# Workspaces from JSON

Fields that are missing have the values that they have in an empty record. An element is read as
what it says it is under `kind`.
-/

namespace Blueprint.Resolved

open Blueprint.Json

/-- Reads a text that may be `null` or missing. -/
def textField? (record : Json) (name : String) : Checked (Option String) :=
  optional record name (readNullable readString) none

/-- Reads a text that may be missing. -/
def textField (record : Json) (name absent : String) : Checked String :=
  optional record name readString absent

/-- Reads a list of texts that may be missing. -/
def textsField (record : Json) (name : String) : Checked (List String) :=
  optional record name (readList readString) []

/-- Reads texts under keys that may be missing. -/
def mapField (record : Json) (name : String) : Checked Properties :=
  optional record name (readMap readString) .empty

/-- Reads the fields that only elements of a sort have. -/
def ElementSort.ofJson (kind : ElementClass) (record : Json) : Checked ElementSort :=
  match kind with
  | .person => .person <$> textField? record "location"
  | .softwareSystem => .softwareSystem <$> textField? record "location"
  | .container => .container <$> textField? record "technology"
  | .component => .component <$> textField? record "technology"
  | .group => pure .group
  | .deploymentEnvironment => pure .deploymentEnvironment
  | .deploymentNode =>
    .deploymentNode <$> textField? record "technology" <*> textField? record "instances" <*>
      textField? record "environment"
  | .infrastructureNode =>
    .infrastructureNode <$> textField? record "technology" <*> textField? record "environment"
  | .softwareSystemInstance =>
    .softwareSystemInstance <$> required record "software_system_id" readString <*>
      textField? record "environment" <*> textsField record "deployment_groups"
  | .containerInstance =>
    .containerInstance <$> required record "container_id" readString <*>
      textField? record "environment" <*> textsField record "deployment_groups"
  | .element => .misfit .unknownTag

/-- The class that an element says it is of. -/
def classOfTag? : String → Option ElementClass
  | "person" => some .person
  | "softwareSystem" => some .softwareSystem
  | "container" => some .container
  | "component" => some .component
  | "group" => some .group
  | "deploymentEnvironment" => some .deploymentEnvironment
  | "deploymentNode" => some .deploymentNode
  | "infrastructureNode" => some .infrastructureNode
  | "softwareSystemInstance" => some .softwareSystemInstance
  | "containerInstance" => some .containerInstance
  | _ => none

/-- Reads the fields of an element of a class. -/
def Element.ofFields (kind : ElementClass) (record : Json) : Checked Element :=
  Element.mk <$> required record "id" readString <*> required record "name" readString <*>
    textField? record "description" <*> textsField record "tags" <*>
    mapField record "properties" <*> mapField record "perspectives" <*>
    textField? record "url" <*> textField? record "parent_id" <*> ElementSort.ofJson kind record

/-- Reads an element. -/
def Element.ofJson (value : Json) : Checked Element :=
  match value with
  | .object _ =>
    match value.member? "kind" with
    | none => .misfit .withoutTag
    | some (.string tag) =>
      match classOfTag? tag with
      | some kind => (Element.ofFields kind value).under (.name tag)
      | none => .misfit .unknownTag
    | some _ => .misfit .unknownTag
  | _ => .misfit .notTagged

/-- Reads a relationship. -/
def Relationship.ofJson : Json → Checked Relationship :=
  readRecord fun record =>
    Relationship.mk <$> required record "id" readString <*>
      required record "source_id" readString <*> required record "destination_id" readString <*>
      textField? record "description" <*> textField? record "technology" <*>
      textsField record "tags" <*> mapField record "properties" <*> textField? record "url" <*>
      optional record "implied" readBool false

/-- Reads a model. -/
def Model.ofJson : Json → Checked Model :=
  readRecord fun record =>
    Model.mk <$> optional record "elements" (readList Element.ofJson) [] <*>
      optional record "relationships" (readList Relationship.ofJson) [] <*>
      textField? record "enterprise"

/-- Reads a request for automatic layout. -/
def AutoLayout.ofJson : Json → Checked AutoLayout :=
  readRecord fun record =>
    AutoLayout.mk <$> textField? record "rank_direction" <*>
      optional record "rank_separation" (readNullable readInt) none <*>
      optional record "node_separation" (readNullable readInt) none

/-- Reads an interaction. -/
def Interaction.ofJson : Json → Checked Interaction :=
  readRecord fun record =>
    Interaction.mk <$> required record "order" readInt <*>
      required record "source_id" readString <*> required record "destination_id" readString <*>
      textField? record "description" <*> textField? record "technology"

/-- Reads a kind of views. -/
def ViewKind.ofJson : Json → Checked ViewKind
  | .string label =>
    match ViewKind.ofLabel? label with
    | some kind => .valid kind
    | none => .misfit .unknownWord
  | _ => .misfit .unknownWord

/-- Reads a view. -/
def View.ofJson : Json → Checked View :=
  readRecord fun record =>
    View.mk <$> required record "kind" ViewKind.ofJson <*> required record "key" readString <*>
      textField? record "title" <*> textField? record "description" <*>
      textField? record "scope_id" <*> textField? record "environment" <*>
      optional record "include_all" readBool false <*> textsField record "element_ids" <*>
      textsField record "excluded_ids" <*> textsField record "expressions" <*>
      textsField record "excluded_expressions" <*>
      optional record "auto_layout" (readNullable AutoLayout.ofJson) none <*>
      optional record "animations" (readList (readList readString)) [] <*>
      optional record "steps" (readList Interaction.ofJson) [] <*>
      mapField record "properties" <*> textField? record "base_key" <*>
      textField? record "filter_mode" <*> textsField record "filter_tags" <*>
      textField? record "content" <*> textField? record "content_type"

/-- Reads a section. -/
def Section.ofJson : Json → Checked Section :=
  readRecord fun record =>
    Section.mk <$> required record "title" readString <*> textField record "content" "" <*>
      textField record "format" "markdown" <*> optional record "order" readInt 0

/-- Reads the documentation. -/
def Documentation.ofJson : Json → Checked Documentation :=
  readRecord fun record =>
    Documentation.mk <$> textField? record "content" <*> textField record "format" "markdown" <*>
      optional record "sections" (readList Section.ofJson) []

/-- Reads a decision. -/
def Decision.ofJson : Json → Checked Decision :=
  readRecord fun record =>
    Decision.mk <$> required record "id" readString <*> textField record "title" "" <*>
      textField? record "date" <*> textField record "status" "Proposed" <*>
      textField record "content" "" <*> textField record "format" "markdown" <*>
      mapField record "links"

/-- Reads a workspace. -/
def Workspace.ofJson : Json → Checked Workspace :=
  readRecord fun record =>
    Workspace.mk <$> textField? record "name" <*> textField? record "description" <*>
      optional record "model" Model.ofJson {} <*>
      optional record "views" (readList View.ofJson) [] <*>
      optional record "documentation" (readNullable Documentation.ofJson) none <*>
      optional record "decisions" (readList Decision.ofJson) [] <*>
      mapField record "properties" <*> mapField record "configuration"

end Blueprint.Resolved
