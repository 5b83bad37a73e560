import Blueprint.Grammar.Workspace

/-!
# Declarations without their places

What is declared, with the place of every part forgotten; only that a part has a place is kept.
Every way in which declarations are put together keeps this: what is put together of parts, without
places, is put together of the parts without places.
-/

namespace Blueprint

/-- A place of which nothing is known but that it is there. -/
def somewhere (position : Option Position) : Option Position :=
  position.map fun _ => Position.start

/-- A diagnostic without its place. -/
def Diagnostic.unplaced (diagnostic : Diagnostic) : Diagnostic :=
  { diagnostic with position := somewhere diagnostic.position }

namespace Declared

/-! ## Elements -/

/-- A relationship without its place. -/
def Relationship.unplaced (relationship : Relationship) : Relationship :=
  { relationship with position := somewhere relationship.position }

/-- The common part of elements without its place. -/
def Details.unplaced (details : Details) : Details :=
  { details with position := somewhere details.position }

/-- An environment without its place. -/
def Environment.unplaced (heading : Environment) : Environment :=
  { heading with position := somewhere heading.position }

/-- An instance without its place. -/
def Deployed.unplaced (deployment : Deployed) : Deployed :=
  { deployment with position := somewhere deployment.position }

mutual

/-- An element without the places of it and its parts. -/
def Element.unplaced : Element → Element
  | .plain sort details relationships members =>
    .plain sort details.unplaced (relationships.map Relationship.unplaced)
      (Element.unplacedOfList members)
  | .environment heading relationships members =>
    .environment heading.unplaced (relationships.map Relationship.unplaced)
      (Element.unplacedOfList members)
  | .deployed deployment relationships =>
    .deployed deployment.unplaced (relationships.map Relationship.unplaced)

/-- Elements without the places of them and their parts. -/
def Element.unplacedOfList : List Element → List Element
  | [] => []
  | element :: rest => Element.unplaced element :: Element.unplacedOfList rest

end

/-- An enterprise without the places of it and its parts. -/
def Enterprise.unplaced (enterprise : Enterprise) : Enterprise :=
  { enterprise with
    position := somewhere enterprise.position
    members := Element.unplacedOfList enterprise.members
    relationships := enterprise.relationships.map Relationship.unplaced }

/-- A model without the places of it and its parts. -/
def Model.unplaced (model : Model) : Model :=
  { model with
    position := somewhere model.position
    members := Element.unplacedOfList model.members
    enterprise := model.enterprise.map Enterprise.unplaced
    relationships := model.relationships.map Relationship.unplaced }

/-! ## Views -/

/-- An expression of a view without its place. -/
def Selection.unplaced (selection : Selection) : Selection :=
  { selection with position := somewhere selection.position }

/-- A request for automatic layout without its place. -/
def AutoLayout.unplaced (layout : AutoLayout) : AutoLayout :=
  { layout with position := somewhere layout.position }

/-- An animation without its place. -/
def Animation.unplaced (animation : Animation) : Animation :=
  { animation with position := somewhere animation.position }

/-- The common part of views without the places of it and its parts. -/
def ViewDetails.unplaced (details : ViewDetails) : ViewDetails :=
  { details with
    position := somewhere details.position
    includes := details.includes.map Selection.unplaced
    excludes := details.excludes.map Selection.unplaced
    autoLayout := details.autoLayout.map AutoLayout.unplaced
    animations := details.animations.map Animation.unplaced }

/-- The sort of a view without the places of its parts. -/
def ViewSort.unplaced : ViewSort → ViewSort
  | .dynamic scope steps => .dynamic scope (steps.map Relationship.unplaced)
  | sort => sort

/-- A view without the places of it and its parts. -/
def View.unplaced (view : View) : View := ⟨view.details.unplaced, view.sort.unplaced⟩

/-- The block `views` without the places of it and its parts. -/
def Views.unplaced (block : Views) : Views :=
  { block with
    position := somewhere block.position
    views := block.views.map View.unplaced }

/-! ## Workspaces -/

/-- A directive without its place. -/
def Directive.unplaced (directive : Directive) : Directive :=
  { directive with position := somewhere directive.position }

/-- A style without its place. -/
def Style.unplaced (style : Style) : Style :=
  { style with position := somewhere style.position }

/-- The block `styles` without the places of it and its parts. -/
def Styles.unplaced (block : Styles) : Styles :=
  { position := somewhere block.position
    elements := block.elements.map Style.unplaced
    relationships := block.relationships.map Style.unplaced }

/-- A theme without its place. -/
def Theme.unplaced (theme : Theme) : Theme :=
  { theme with position := somewhere theme.position }

/-- Branding without its place. -/
def Branding.unplaced (branding : Branding) : Branding :=
  { branding with position := somewhere branding.position }

/-- Terminology without its place. -/
def Terminology.unplaced (terminology : Terminology) : Terminology :=
  { terminology with position := somewhere terminology.position }

/-- A section without its place. -/
def Section.unplaced (part : Section) : Section :=
  { part with position := somewhere part.position }

/-- Documentation without the places of it and its parts. -/
def Documentation.unplaced (block : Documentation) : Documentation :=
  { block with
    position := somewhere block.position
    sections := block.sections.map Section.unplaced }

/-- A decision without its place. -/
def Decision.unplaced (decision : Decision) : Decision :=
  { decision with position := somewhere decision.position }

/-- A workspace without the places of it and its parts. -/
def Workspace.unplaced (workspace : Workspace) : Workspace :=
  { workspace with
    position := somewhere workspace.position
    model := workspace.model.map Model.unplaced
    views := workspace.views.map Views.unplaced
    styles := workspace.styles.map Styles.unplaced
    themes := workspace.themes.map Theme.unplaced
    branding := workspace.branding.map Branding.unplaced
    terminology := workspace.terminology.map Terminology.unplaced
    documentation := workspace.documentation.map Documentation.unplaced
    decisions := workspace.decisions.map Decision.unplaced
    directives := workspace.directives.map Directive.unplaced }

end Declared

/-- A statement of a body without the places of it and its parts. -/
def Grammar.BodyEntry.unplaced : Grammar.BodyEntry → Grammar.BodyEntry
  | .edit change => .edit change
  | .relationship declared => .relationship declared.unplaced
  | .member declared => .member declared.unplaced
  | .enterprise declared => .enterprise declared.unplaced

/-! ## Putting declarations together -/

/-- An item takes the place of its rank, whatever else of it is forgotten. -/
theorem map_insertByRank {α : Type} {rank : α → Nat} {erase : α → α}
    (h : ∀ item, rank (erase item) = rank item) (item : α) (items : List α) :
    (insertByRank rank item items).map erase =
      insertByRank rank (erase item) (items.map erase) := by
  have hp : (fun other => decide (rank other ≤ rank (erase item))) ∘ erase =
      fun other => decide (rank other ≤ rank item) := by
    funext other
    rw [Function.comp_apply, h, h]
  unfold insertByRank
  rw [List.takeWhile_map, List.dropWhile_map, hp, List.map_append, List.map_cons]

namespace Declared

open Grammar

namespace Element

/-- Elements without places are each of them without its place. -/
theorem unplacedOfList_eq (elements : List Element) :
    unplacedOfList elements = elements.map unplaced := by
  induction elements with
  | nil => rfl
  | cons element rest ih => rw [unplacedOfList, ih, List.map_cons]

/-- The rank of a member of an element does not depend on its place. -/
theorem rankInElement_unplaced (element : Element) :
    element.unplaced.rankInElement = element.rankInElement := by
  cases element with
  | plain sort details relationships members => cases sort <;> rfl
  | environment heading relationships members => rfl
  | deployed deployment relationships => rfl

/-- The rank of a member of a model does not depend on its place. -/
theorem rankInModel_unplaced (element : Element) :
    element.unplaced.rankInModel = element.rankInModel := by
  cases element with
  | plain sort details relationships members => cases sort <;> rfl
  | environment heading relationships members => rfl
  | deployed deployment relationships => rfl

/-- A further member is one without its place. -/
theorem unplaced_insertMember (owner member : Element) :
    (owner.insertMember member).unplaced = owner.unplaced.insertMember member.unplaced := by
  have hr := map_insertByRank rankInElement_unplaced member
  cases owner with
  | plain sort details relationships members =>
    cases sort <;> simp [insertMember, unplaced, unplacedOfList_eq, hr]
  | environment heading relationships members => simp [insertMember, unplaced, unplacedOfList_eq]
  | deployed deployment relationships => rfl

/-- A further relationship is one without its place. -/
theorem unplaced_insertRelationship (owner : Element) (relationship : Relationship) :
    (owner.insertRelationship relationship).unplaced =
      owner.unplaced.insertRelationship relationship.unplaced := by
  cases owner <;> simp [insertRelationship, unplaced]

/-- A property statement changes no place. -/
theorem unplaced_edit (element : Element) (change : PropertyEdit) :
    (element.edit change).unplaced = element.unplaced.edit change := by
  cases element with
  | plain sort details relationships members => cases change <;> rfl
  | environment heading relationships members => rfl
  | deployed deployment relationships => cases change <;> rfl

/-- A further statement in the body of an element is one without its place. -/
theorem unplaced_add (element : Element) (entry : BodyEntry) :
    (element.add entry).unplaced = element.unplaced.add entry.unplaced := by
  cases entry with
  | edit change => exact unplaced_edit element change
  | relationship relationship => exact unplaced_insertRelationship element relationship
  | member member => exact unplaced_insertMember element member
  | enterprise enterprise => rfl

end Element

/-- A property statement changes no place. -/
theorem Relationship.unplaced_edit (relationship : Relationship) (change : PropertyEdit) :
    (relationship.edit change).unplaced = relationship.unplaced.edit change := by
  cases change <;> rfl

/-- A further statement in the body of an enterprise is one without its place. -/
theorem Enterprise.unplaced_add (enterprise : Enterprise) (entry : BodyEntry) :
    (enterprise.add entry).unplaced = enterprise.unplaced.add entry.unplaced := by
  cases entry <;> simp [add, unplaced, BodyEntry.unplaced, Element.unplacedOfList_eq]

/-- A further statement in the body of a model is one without its place. -/
theorem Model.unplaced_add (model : Model) (entry : BodyEntry) :
    (model.add entry).unplaced = model.unplaced.add entry.unplaced := by
  have hr := fun member => map_insertByRank Element.rankInModel_unplaced member model.members
  cases entry with
  | edit change => cases change <;> rfl
  | relationship relationship => simp [add, unplaced, BodyEntry.unplaced]
  | member member =>
    simp [add, unplaced, BodyEntry.unplaced, insertMember, Element.unplacedOfList_eq, hr]
  | enterprise enterprise => rfl

/-- Statements that are added one after the other are added without their places. -/
theorem unplaced_foldl {α : Type} {erase : α → α} {add : α → BodyEntry → α}
    (h : ∀ owner entry, erase (add owner entry) = add (erase owner) entry.unplaced)
    (owner : α) (entries : List BodyEntry) :
    erase (entries.foldl add owner) = (entries.map BodyEntry.unplaced).foldl add (erase owner) := by
  induction entries generalizing owner with
  | nil => rfl
  | cons entry rest ih => rw [List.foldl_cons, ih, h, List.map_cons, List.foldl_cons]

/-- The rank of a view does not depend on its place. -/
theorem View.rank_unplaced (view : View) : view.unplaced.rank = view.rank := by
  obtain ⟨details, sort⟩ := view
  cases sort <;> rfl

/-- A further view is one without its place. -/
theorem Views.unplaced_insertView (block : Views) (view : View) :
    (block.insertView view).unplaced = block.unplaced.insertView view.unplaced := by
  simp only [insertView, unplaced, map_insertByRank View.rank_unplaced]

end Declared

end Blueprint
