import Blueprint.Grammar.Body
import Blueprint.Proofs.Declared.Traversal

/-!
# The places of the nodes of a workspace

The places of a workspace are those of its nodes. Adding a declaration whose places are among some
positions leaves all places among them, and so does every other change that reading makes.
-/

namespace Blueprint

/-- A place, if there is one, is one of some positions. -/
def Within (spots : Position → Prop) (position : Option Position) : Prop :=
  ∀ place, position = some place → spots place

variable {spots : Position → Prop}

/-- Where there is no place, it is among any positions. -/
theorem within_none : Within spots none := fun _ he => nomatch he

/-- A place that is known is among the positions that it is one of. -/
theorem within_some {place : Position} (h : spots place) : Within spots (some place) := by
  rintro _ ⟨⟩
  exact h

namespace Declared

/-- Where a node starts. -/
def Node.position : Node → Option Position
  | .workspace declared => declared.position
  | .model declared => declared.position
  | .element declared => declared.position
  | .enterprise declared => declared.position
  | .relationship declared => declared.position
  | .directive declared => declared.position
  | .views declared => declared.position
  | .view declared => declared.details.position
  | .inclusion selection => selection.position
  | .exclusion selection => selection.position
  | .autoLayout layout => layout.position
  | .animation declared => declared.position
  | .styles declared => declared.position
  | .elementStyle style => style.position
  | .relationshipStyle style => style.position
  | .theme declared => declared.position
  | .branding declared => declared.position
  | .terminology declared => declared.position
  | .documentation declared => declared.position
  | .documentationSection part => part.position
  | .decision declared => declared.position

/-- The places of nodes are among some positions. -/
def Anchored (spots : Position → Prop) (nodes : List Node) : Prop :=
  ∀ node ∈ nodes, Within spots node.position

/-- The places of a node and of others. -/
@[simp] theorem anchored_cons {node : Node} {nodes : List Node} :
    Anchored spots (node :: nodes) ↔ Within spots node.position ∧ Anchored spots nodes :=
  List.forall_mem_cons

/-- The places of no nodes. -/
@[simp] theorem anchored_nil : Anchored spots [] :=
  fun _ hm => absurd hm List.not_mem_nil

/-- The places of nodes and of others. -/
@[simp] theorem anchored_append {first second : List Node} :
    Anchored spots (first ++ second) ↔ Anchored spots first ∧ Anchored spots second :=
  List.forall_mem_append

/-- The places of parts that are nodes of one sort. -/
@[simp] theorem anchored_map {α : Type} {node : α → Node} {parts : List α} :
    Anchored spots (parts.map node) ↔ ∀ part ∈ parts, Within spots (node part).position :=
  List.forall_mem_map

/-- The places of a part that may be missing. -/
@[simp] theorem anchored_toList {α : Type} {node : α → Node} {part : Option α} :
    Anchored spots (part.map node).toList ↔
      ∀ found, part = some found → Within spots (node found).position := by
  cases part <;> simp

/-- The places of the nodes of several parts. -/
@[simp] theorem anchored_flatMap {α : Type} {nodes : α → List Node} {parts : List α} :
    Anchored spots (parts.flatMap nodes) ↔ ∀ part ∈ parts, Anchored spots (nodes part) := by
  unfold Anchored
  simp only [List.mem_flatMap]
  exact ⟨fun h part hp node hn => h node ⟨part, hp, hn⟩,
    fun h node ⟨part, hp, hn⟩ => h part hp node hn⟩

/-! ## Elements -/

/-- The places of several elements are those of each. -/
@[simp] theorem anchored_nodesOfList {members : List Element} :
    Anchored spots (Element.nodesOfList members) ↔
      ∀ member ∈ members, Anchored spots member.nodes := by
  rw [Element.nodesOfList_eq, anchored_flatMap]

/-- The places of a plain element are its own and those of its parts. -/
theorem anchored_plain {sort : PlainSort} {details : Details}
    {relationships : List Relationship} {members : List Element} :
    Anchored spots (Element.plain sort details relationships members).nodes ↔
      Within spots details.position ∧
        (∀ relationship ∈ relationships, Within spots relationship.position) ∧
        ∀ member ∈ members, Anchored spots member.nodes := by
  simp [Element.nodes, Node.position, Element.position]

/-- The places of a deployment environment are its own and those of its parts. -/
theorem anchored_environment {heading : Environment} {relationships : List Relationship}
    {members : List Element} :
    Anchored spots (Element.environment heading relationships members).nodes ↔
      Within spots heading.position ∧
        (∀ relationship ∈ relationships, Within spots relationship.position) ∧
        ∀ member ∈ members, Anchored spots member.nodes := by
  simp [Element.nodes, Node.position, Element.position, and_comm]

/-- The places of an instance are its own and those of its relationships. -/
theorem anchored_deployed {deployment : Deployed} {relationships : List Relationship} :
    Anchored spots (Element.deployed deployment relationships).nodes ↔
      Within spots deployment.position ∧
        ∀ relationship ∈ relationships, Within spots relationship.position := by
  simp [Element.nodes, Node.position, Element.position]

/-- One more member whose places are known. -/
theorem anchored_insertMember {owner member : Element} (h : Anchored spots owner.nodes)
    (hm : Anchored spots member.nodes) : Anchored spots (owner.insertMember member).nodes := by
  unfold Element.insertMember
  split
  · rw [anchored_plain] at h ⊢
    simp only [List.forall_mem_append, List.forall_mem_singleton]
    exact ⟨h.1, h.2.1, h.2.2, hm⟩
  · rw [anchored_plain] at h ⊢
    exact ⟨h.1, h.2.1, (forall_mem_insertByRank _ _ _).mpr ⟨hm, h.2.2⟩⟩
  · rw [anchored_environment] at h ⊢
    simp only [List.forall_mem_append, List.forall_mem_singleton]
    exact ⟨h.1, h.2.1, h.2.2, hm⟩
  · exact h

/-- One more relationship whose place is known. -/
theorem anchored_insertRelationship {owner : Element} {relationship : Relationship}
    (h : Anchored spots owner.nodes) (hr : Within spots relationship.position) :
    Anchored spots (owner.insertRelationship relationship).nodes := by
  unfold Element.insertRelationship
  split
  · rw [anchored_plain] at h ⊢
    simp only [List.forall_mem_append, List.forall_mem_singleton]
    exact ⟨h.1, ⟨h.2.1, hr⟩, h.2.2⟩
  · rw [anchored_environment] at h ⊢
    simp only [List.forall_mem_append, List.forall_mem_singleton]
    exact ⟨h.1, ⟨h.2.1, hr⟩, h.2.2⟩
  · rw [anchored_deployed] at h ⊢
    simp only [List.forall_mem_append, List.forall_mem_singleton]
    exact ⟨h.1, h.2, hr⟩

/-- A property statement changes no place. -/
theorem position_edit_relationship (relationship : Relationship) (change : Grammar.PropertyEdit) :
    (relationship.edit change).position = relationship.position := by
  cases change <;> rfl

/-- A property statement changes no place. -/
theorem position_edit_details (details : Details) (change : Grammar.PropertyEdit) :
    (details.edit change).position = details.position := by
  cases change <;> rfl

/-- A property statement changes no place. -/
theorem position_edit_deployed (deployment : Deployed) (change : Grammar.PropertyEdit) :
    (deployment.edit change).position = deployment.position := by
  cases change <;> rfl

/-- A property statement changes no place of an element. -/
theorem anchored_edit {element : Element} (h : Anchored spots element.nodes)
    (change : Grammar.PropertyEdit) : Anchored spots (element.edit change).nodes := by
  cases element with
  | plain sort details relationships members =>
    rw [anchored_plain] at h
    rw [Element.edit, anchored_plain, position_edit_details]
    exact h
  | environment heading relationships members => exact h
  | deployed deployment relationships =>
    rw [anchored_deployed] at h
    rw [Element.edit, anchored_deployed, position_edit_deployed]
    exact h

/-! ## Statements of bodies -/

/-- The places of an enterprise are its own and those of its parts. -/
theorem anchored_enterprise {enterprise : Enterprise} :
    Anchored spots enterprise.nodes ↔
      Within spots enterprise.position ∧
        (∀ member ∈ enterprise.members, Anchored spots member.nodes) ∧
        ∀ relationship ∈ enterprise.relationships, Within spots relationship.position := by
  simp [Enterprise.nodes, Node.position]

/-- The places of what a statement of a body declares. -/
def AnchoredEntry (spots : Position → Prop) : Grammar.BodyEntry → Prop
  | .edit _ => True
  | .relationship relationship => Within spots relationship.position
  | .member member => Anchored spots member.nodes
  | .enterprise enterprise => Anchored spots enterprise.nodes

/-- One more statement of a body whose places are known. -/
theorem anchored_add {element : Element} (h : Anchored spots element.nodes)
    {entry : Grammar.BodyEntry} (he : AnchoredEntry spots entry) :
    Anchored spots (element.add entry).nodes := by
  cases entry with
  | edit change => exact anchored_edit h change
  | relationship relationship => exact anchored_insertRelationship h he
  | member member => exact anchored_insertMember h he
  | enterprise enterprise => exact h

/-- The statements of a body whose places are known, one after the other. -/
theorem anchored_addAll {entries : List Grammar.BodyEntry}
    (he : ∀ entry ∈ entries, AnchoredEntry spots entry) {element : Element}
    (h : Anchored spots element.nodes) :
    Anchored spots (entries.foldl Element.add element).nodes :=
  List.foldlRecOn (motive := fun built => Anchored spots built.nodes) entries Element.add h
    fun _ hb _ hm => anchored_add hb (he _ hm)

/-- One more statement of the body of an enterprise whose places are known. -/
theorem anchored_enterprise_add {enterprise : Enterprise} (h : Anchored spots enterprise.nodes)
    {entry : Grammar.BodyEntry} (he : AnchoredEntry spots entry) :
    Anchored spots (enterprise.add entry).nodes := by
  rw [anchored_enterprise] at h
  cases entry with
  | edit change => exact anchored_enterprise.mpr h
  | enterprise other => exact anchored_enterprise.mpr h
  | relationship relationship =>
    simp only [Enterprise.add, anchored_enterprise, List.forall_mem_append,
      List.forall_mem_singleton]
    exact ⟨h.1, h.2.1, h.2.2, he⟩
  | member member =>
    simp only [Enterprise.add, anchored_enterprise, List.forall_mem_append,
      List.forall_mem_singleton]
    exact ⟨h.1, ⟨h.2.1, he⟩, h.2.2⟩

/-- The statements of the body of an enterprise, one after the other. -/
theorem anchored_enterprise_addAll {entries : List Grammar.BodyEntry}
    (he : ∀ entry ∈ entries, AnchoredEntry spots entry) {enterprise : Enterprise}
    (h : Anchored spots enterprise.nodes) :
    Anchored spots (entries.foldl Enterprise.add enterprise).nodes :=
  List.foldlRecOn (motive := fun built => Anchored spots built.nodes) entries Enterprise.add h
    fun _ hb _ hm => anchored_enterprise_add hb (he _ hm)

/-! ## Models -/

/-- The places of a model are among some positions. -/
structure Model.Anchored (spots : Position → Prop) (model : Model) : Prop where
  /-- The place of the model itself. -/
  position : Within spots model.position
  /-- The places of the members. -/
  members : ∀ member ∈ model.members, Declared.Anchored spots member.nodes
  /-- The places of the enterprise. -/
  enterprise : ∀ enterprise, model.enterprise = some enterprise →
    Declared.Anchored spots enterprise.nodes
  /-- The places of the relationships. -/
  relationships : ∀ relationship ∈ model.relationships, Within spots relationship.position

/-- The nodes of a model have the places of its parts. -/
theorem Model.Anchored.nodes {model : Model} (h : model.Anchored spots) :
    Declared.Anchored spots model.nodes := by
  unfold Model.nodes
  simp only [anchored_cons, anchored_append, anchored_nodesOfList, List.forall_mem_append,
    anchored_map]
  refine ⟨h.position, ⟨⟨⟨?_, ?_⟩, ?_⟩, ?_⟩, h.relationships⟩
  · exact fun member hm => h.members member (List.mem_filter.mp hm).1
  · exact fun member hm => h.members member (List.mem_filter.mp hm).1
  · exact fun member hm => h.members member (List.mem_filter.mp hm).1
  · cases he : model.enterprise with
    | none => exact anchored_nil
    | some enterprise => exact h.enterprise enterprise he

/-- A model of nothing has its own place only. -/
theorem Model.anchored_empty {position : Option Position} (h : Within spots position) :
    Model.Anchored spots { position } where
  position := h
  members := List.forall_mem_nil _
  enterprise := fun _ he => nomatch he
  relationships := List.forall_mem_nil _

/-- One more statement of the model whose places are known. -/
theorem Model.Anchored.add {model : Model} (h : model.Anchored spots)
    {entry : Grammar.BodyEntry} (he : AnchoredEntry spots entry) :
    (model.add entry).Anchored spots := by
  cases entry with
  | edit change => cases change <;> exact ⟨h.position, h.members, h.enterprise, h.relationships⟩
  | relationship relationship =>
    refine ⟨h.position, h.members, h.enterprise, ?_⟩
    exact List.forall_mem_append.mpr ⟨h.relationships, List.forall_mem_singleton.mpr he⟩
  | member member =>
    exact ⟨h.position, (forall_mem_insertByRank _ _ _).mpr ⟨he, h.members⟩, h.enterprise,
      h.relationships⟩
  | enterprise enterprise =>
    refine ⟨h.position, h.members, ?_, h.relationships⟩
    rintro _ ⟨⟩
    exact he

/-- The statements of the model, one after the other. -/
theorem Model.Anchored.addAll {entries : List Grammar.BodyEntry}
    (he : ∀ entry ∈ entries, AnchoredEntry spots entry) {model : Model}
    (h : model.Anchored spots) : (entries.foldl Model.add model).Anchored spots :=
  List.foldlRecOn (motive := Model.Anchored spots) entries Model.add h
    fun _ hb _ hm => hb.add (he _ hm)

/-! ## Views -/

/-- The places of what all views have are among some positions. -/
structure ViewDetails.Anchored (spots : Position → Prop) (details : ViewDetails) : Prop where
  /-- The place of the view. -/
  position : Within spots details.position
  /-- The places of what it includes. -/
  includes : ∀ selection ∈ details.includes, Within spots selection.position
  /-- The places of what it excludes. -/
  excludes : ∀ selection ∈ details.excludes, Within spots selection.position
  /-- The place of the layout. -/
  autoLayout : ∀ layout, details.autoLayout = some layout → Within spots layout.position
  /-- The places of the animations. -/
  animations : ∀ animation ∈ details.animations, Within spots animation.position

/-- The places of a view are among some positions. -/
structure View.Anchored (spots : Position → Prop) (view : View) : Prop where
  /-- The places of what all views have. -/
  details : view.details.Anchored spots
  /-- The places of the interactions. -/
  steps : ∀ scope steps, view.sort = .dynamic scope steps →
    ∀ step ∈ steps, Within spots step.position

/-- A view that is no dynamic view has no interactions. -/
theorem View.anchored_of_details {details : ViewDetails} {sort : ViewSort}
    (h : details.Anchored spots) (hs : ∀ scope steps, sort ≠ .dynamic scope steps) :
    View.Anchored spots ⟨details, sort⟩ :=
  ⟨h, fun scope steps he => absurd he (hs scope steps)⟩

/-- A view has its places with one more step. -/
theorem View.Anchored.addStep {view : View} (h : view.Anchored spots) {step : Relationship}
    (hs : Within spots step.position) : (view.addStep step).Anchored spots := by
  unfold View.addStep
  split
  · rename_i scope steps he
    refine ⟨h.details, ?_⟩
    rintro _ _ ⟨⟩
    exact List.forall_mem_append.mpr ⟨h.steps scope steps he, List.forall_mem_singleton.mpr hs⟩
  · exact h

/-- The nodes of a view have the places of its parts. -/
theorem View.Anchored.nodes {view : View} (h : view.Anchored spots) :
    Declared.Anchored spots view.nodes := by
  unfold View.nodes
  simp only [anchored_cons, anchored_append, anchored_map, anchored_toList]
  refine ⟨h.details.position, ⟨⟨⟨h.details.includes, h.details.excludes⟩,
    h.details.autoLayout⟩, h.details.animations⟩, ?_⟩
  split
  · rename_i scope steps hs
    exact anchored_map.mpr (h.steps scope steps hs)
  · exact anchored_nil

/-! ## Workspaces -/

/-- The places of the styles are among some positions. -/
structure Styles.Anchored (spots : Position → Prop) (block : Styles) : Prop where
  /-- The place of the block. -/
  position : Within spots block.position
  /-- The places of the styles for elements. -/
  elements : ∀ style ∈ block.elements, Within spots style.position
  /-- The places of the styles for relationships. -/
  relationships : ∀ style ∈ block.relationships, Within spots style.position

/-- The places of a workspace are among some positions. -/
structure Workspace.Anchored (spots : Position → Prop) (workspace : Workspace) : Prop where
  /-- The place of the workspace itself. -/
  position : Within spots workspace.position
  /-- The places of the model. -/
  model : ∀ model, workspace.model = some model → model.Anchored spots
  /-- The places of the views. -/
  views : ∀ block, workspace.views = some block →
    Within spots block.position ∧ ∀ view ∈ block.views, view.Anchored spots
  /-- The places of the styles. -/
  styles : ∀ block, workspace.styles = some block → block.Anchored spots
  /-- The places of the themes. -/
  themes : ∀ theme ∈ workspace.themes, Within spots theme.position
  /-- The place of the branding. -/
  branding : ∀ branding, workspace.branding = some branding → Within spots branding.position
  /-- The place of the terminology. -/
  terminology : ∀ terminology, workspace.terminology = some terminology →
    Within spots terminology.position
  /-- The places of the documentation. -/
  documentation : ∀ block, workspace.documentation = some block →
    Within spots block.position ∧ ∀ part ∈ block.sections, Within spots part.position
  /-- The places of the decisions. -/
  decisions : ∀ decision ∈ workspace.decisions, Within spots decision.position
  /-- The places of the directives. -/
  directives : ∀ directive ∈ workspace.directives, Within spots directive.position

/-- A workspace of nothing has no places. -/
theorem Workspace.anchored_empty : Workspace.Anchored spots {} where
  position := within_none
  model := fun _ he => nomatch he
  views := fun _ he => nomatch he
  styles := fun _ he => nomatch he
  themes := List.forall_mem_nil _
  branding := fun _ he => nomatch he
  terminology := fun _ he => nomatch he
  documentation := fun _ he => nomatch he
  decisions := List.forall_mem_nil _
  directives := List.forall_mem_nil _

/-- The nodes of a workspace have the places of its parts. -/
theorem Workspace.Anchored.nodes {workspace : Workspace} (h : workspace.Anchored spots) :
    Declared.Anchored spots workspace.nodes := by
  unfold Workspace.nodes
  simp only [anchored_cons, anchored_append, anchored_map, anchored_toList]
  refine ⟨h.position, ⟨⟨⟨⟨⟨⟨⟨?_, ?_⟩, ?_⟩, h.themes⟩, h.branding⟩, h.terminology⟩, ?_⟩,
    h.decisions⟩, h.directives⟩
  · cases hm : workspace.model with
    | none => exact anchored_nil
    | some model => exact (h.model model hm).nodes
  · split
    · rename_i block hb
      obtain ⟨hp, hv⟩ := h.views block hb
      exact anchored_cons.mpr ⟨hp, anchored_flatMap.mpr fun view hm => (hv view hm).nodes⟩
    · exact anchored_nil
  · split
    · rename_i block hb
      have hs := h.styles block hb
      simp only [anchored_cons, anchored_append, anchored_map]
      exact ⟨hs.position, hs.elements, hs.relationships⟩
    · exact anchored_nil
  · split
    · rename_i block hb
      obtain ⟨hp, hs⟩ := h.documentation block hb
      exact anchored_cons.mpr ⟨hp, anchored_map.mpr hs⟩
    · exact anchored_nil

end Declared

end Blueprint
