import Blueprint.Resolved.Element

/-!
# Models

A model holds elements and relationships in the order of their declaration. Nothing here relies on
identifiers being distinct or parents being there: of several elements with one identifier the first
counts, and the way up to the ancestors of an element stops where it would come back to itself.
-/

namespace Blueprint.Resolved

/-- The elements and relationships of a workspace. -/
structure Model where
  /-- The elements. -/
  elements : List Element := []
  /-- The relationships. -/
  relationships : List Relationship := []
  /-- The name of the enterprise. -/
  enterprise : Option String := none
  deriving DecidableEq, Repr

namespace Model

/-- The first element with an identifier. -/
def get? (model : Model) (id : String) : Option Element :=
  model.elements.find? fun element => element.id == id

/-- The elements of a class. -/
def ofClass (model : Model) (wanted : ElementClass) : List Element :=
  model.elements.filter fun element => element.kind.isA wanted

/-- The elements with a parent, or without one. -/
def childrenOf (model : Model) (parent : Option String) : List Element :=
  model.elements.filter fun element => element.parent == parent

/-- The parent of the element with an identifier. -/
def parentOf? (model : Model) (id : String) : Option String :=
  (model.get? id).bind Element.parent

/-- The elements whose parent is not among some identifiers. -/
def withParentOutside (model : Model) (ids : List String) : List Element :=
  model.elements.filter fun element => element.parent.any (· ∉ ids)

/-- A parent that joins the identifiers leaves fewer elements with a parent outside of them. -/
theorem withParentOutside_lt (model : Model) {ids : List String} {id parent : String}
    (known : model.parentOf? id = some parent) (new : parent ∉ ids) :
    (model.withParentOutside (ids ++ [parent])).length <
      (model.withParentOutside ids).length := by
  obtain ⟨element, found, up⟩ := Option.bind_eq_some_iff.mp known
  have member := List.mem_of_find?_eq_some found
  have split : model.withParentOutside (ids ++ [parent]) =
      (model.withParentOutside ids).filter fun element => element.parent.any (· ≠ parent) := by
    simp only [withParentOutside, List.filter_filter]
    congr 1
    funext element
    cases element.parent <;> simp [not_or, Bool.and_comm]
  rw [split]
  refine List.length_filter_lt_length_iff_exists.mpr ⟨element, ?_, by simp [up]⟩
  simp [withParentOutside, member, up, new]

/-- The parent of an element, its parent and so on, up to an element without a parent or to one of
the given identifiers. -/
def ancestorsOutside (model : Model) (seen : List String) (id : String) : List String :=
  match _ : model.parentOf? id with
  | none => []
  | some parent =>
    if _ : parent ∈ seen then []
    else parent :: model.ancestorsOutside (seen ++ [parent]) parent
termination_by (model.withParentOutside seen).length
decreasing_by
  exact model.withParentOutside_lt ‹model.parentOf? id = some parent› ‹parent ∉ seen›

/-- The identifiers of the elements around an element, the nearest first. -/
def ancestorsOf (model : Model) (id : String) : List String := model.ancestorsOutside [] id

/-- Whether there is a relationship from one element to another. -/
def hasRelationship (model : Model) (source destination : String) : Bool :=
  model.relationships.any fun relationship =>
    relationship.source == source && relationship.destination == destination

end Model

end Blueprint.Resolved
