import Blueprint.OrderedMap
import Blueprint.Registry.ElementClass
import Blueprint.Text.Case

/-!
# The registry of elements

The registry knows the elements of a workspace by their identifiers, names, parents and classes, and
the aliases of identifiers. Registering an element under a taken identifier replaces the earlier
element: it keeps its place among all elements and moves to the end among those of its name, parent
and class.
-/

namespace Blueprint

/-- What the registry knows of an element. -/
structure Entry where
  /-- The identifier. -/
  id : String
  /-- The name. -/
  name : String
  /-- The identifier of the parent. -/
  parent : Option String := none
  /-- The class. -/
  kind : ElementClass
  deriving DecidableEq, Repr

/-- Whether an element has a name up to the case of letters. -/
def Entry.hasNameLike (entry : Entry) (name : String) : Bool :=
  Text.lower entry.name == Text.lower name

/-- The elements of a workspace, under all that they can be found by. -/
structure Registry where
  /-- The elements by their identifiers. -/
  elements : OrderedMap String Entry := .empty
  /-- The identifier of the first element registered under each name. -/
  names : OrderedMap String String := .empty
  /-- The identifiers of the children of each parent. -/
  children : OrderedMap String (List String) := .empty
  /-- The identifiers of the elements of each class. An element that is amended is the same element
  under its class, so the table keeps identifiers; they are looked up without a loss. -/
  classes : OrderedMap ElementClass (List String) := .empty
  /-- What each alias stands for. -/
  aliases : OrderedMap String String := .empty
  /-- The element that relative references are relative to. -/
  context : Option String := none
  deriving DecidableEq, Repr

namespace Registry

/-- The registry of nothing. -/
def empty : Registry := {}

instance : Inhabited Registry := ⟨empty⟩

/-! ## Registration -/

/-- Adds an identifier at the end of a list unless it is there. -/
def addOnce (ids : List String) (id : String) : List String :=
  if id ∈ ids then ids else ids ++ [id]

/-- The identifiers in a table of lists, under one key. -/
def listed {κ : Type} [DecidableEq κ] (table : OrderedMap κ (List String)) (key : κ) :
    List String :=
  (table.get? key).getD []

/-- Removes the traces of an element from the names, children and classes. -/
def unlink (registry : Registry) (entry : Entry) : Registry :=
  { registry with
    names :=
      if registry.names.get? entry.name = some entry.id then registry.names.erase entry.name
      else registry.names
    children :=
      match entry.parent with
      | some parent => registry.children.modify parent (·.erase entry.id)
      | none => registry.children
    classes := registry.classes.modify entry.kind (·.erase entry.id) }

/-- Adds an element that has no traces to the names, children and classes. -/
def link (registry : Registry) (entry : Entry) : Registry :=
  { registry with
    elements := registry.elements.insert entry.id entry
    names :=
      if registry.names.contains entry.name then registry.names
      else registry.names.insert entry.name entry.id
    children :=
      match entry.parent with
      | some parent =>
        registry.children.insert parent (addOnce (listed registry.children parent) entry.id)
      | none => registry.children
    classes :=
      registry.classes.insert entry.kind
        (addOnce (listed registry.classes entry.kind) entry.id) }

/-- Registers an element, in place of the earlier one with its identifier. -/
def register (registry : Registry) (entry : Entry) : Registry :=
  match registry.elements.get? entry.id with
  | some previous => (registry.unlink previous).link entry
  | none => registry.link entry

/-- Makes an alias stand for an identifier, which need not be registered. -/
def registerAlias (registry : Registry) (name id : String) : Registry :=
  { registry with aliases := registry.aliases.insert name id }

/-- Makes relative references relative to another element, or to none. -/
def withContext (registry : Registry) (context : Option String) : Registry :=
  { registry with context }

/-- Changes what is known of an element without changing what it is found by. -/
def amend (registry : Registry) (id : String) (change : Entry → Entry) : Registry :=
  { registry with elements := registry.elements.modify id change }

/-! ## Queries -/

/-- The element with an identifier. -/
def get? (registry : Registry) (id : String) : Option Entry := registry.elements.get? id

/-- All elements. -/
def all (registry : Registry) : List Entry := registry.elements.values

/-- The elements of a class, class by class. -/
def ofClass (registry : Registry) (wanted : ElementClass) : List Entry :=
  ((registry.classes.entries.filter fun entry => entry.1.isA wanted).flatMap Prod.snd).filterMap
    registry.get?

/-- The children of an element in the order of their registration. -/
def childrenOf (registry : Registry) (parent : String) : List Entry :=
  (listed registry.children parent).filterMap registry.get?

/-- The element of a class that has a name: the first one registered under it, else any with exactly
this name, else any with this name up to the case of letters. -/
def findByName (registry : Registry) (name : String) (wanted : ElementClass) : Option Entry :=
  let fits := fun (entry : Entry) => entry.kind.isA wanted
  (((registry.names.get? name).bind registry.get?).filter fits).or
    ((registry.all.find? fun entry => entry.name == name && fits entry).or
      (registry.all.find? fun entry => entry.hasNameLike name && fits entry))

/-- The child of an element that a part of a path names: by its name or identifier, else by its name
up to the case of letters. -/
def findChild (registry : Registry) (parent part : String) : Option Entry :=
  let children := registry.childrenOf parent
  (children.find? fun child => child.name == part || child.id == part).or
    ((children.find? fun child => child.hasNameLike part).or
      (registry.all.find? fun entry =>
        entry.parent == some parent && entry.hasNameLike part))

end Registry

end Blueprint
