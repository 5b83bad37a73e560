import Blueprint.Declared.Workspace
import Blueprint.Diagnostic.Reported
import Blueprint.Registry.Resolve
import Blueprint.Resolved.Model

/-!
# Registering declared elements

The elements of a model are registered in the order of its members, each before its own members. An
element whose identifier is taken is left out with everything in it. Instances and relationships
refer to elements that may be declared later, so they wait until all elements are registered.
-/

namespace Blueprint.Build

/-- Where an element is declared. -/
structure Place where
  /-- Whether an identifier starts with that of the element around it. -/
  hierarchical : Bool := false
  /-- The identifier of the element around it; groups do not count. -/
  parent : Option String := none
  /-- The name of the deployment environment around it. -/
  environment : Option String := none
  /-- The identifier of the deployment node in whose body it stands. -/
  host : Option String := none
  deriving DecidableEq, Repr

/-- A declared relationship, and the element in whose body it stands. -/
structure WaitingRelationship where
  /-- The declaration. -/
  declared : Declared.Relationship
  /-- The identifier of the element around it. -/
  context : Option String
  deriving DecidableEq, Repr

/-- A declared instance, and the deployment node that it stands on. -/
structure WaitingInstance where
  /-- The declaration. -/
  declared : Declared.Deployed
  /-- The relationships of its body. -/
  relationships : List Declared.Relationship
  /-- The identifier of the deployment node. -/
  host : String
  /-- The name of the deployment environment. -/
  environment : Option String
  deriving DecidableEq, Repr

/-- What is registered so far, and what waits. -/
structure Draft where
  /-- The registry of the elements. -/
  registry : Registry := .empty
  /-- The elements in the order of their registration. -/
  elements : List Resolved.Element := []
  /-- The relationships that wait for their ends. -/
  relationships : List WaitingRelationship := []
  /-- The instances that wait for what they are instances of. -/
  instances : List WaitingInstance := []
  /-- The identifiers of what the instances so far are instances of. -/
  targets : List String := []
  deriving Repr

namespace Draft

/-- The draft with one more element. -/
def add (draft : Draft) (element : Resolved.Element) : Draft :=
  { draft with
    registry := draft.registry.register element.entry
    elements := draft.elements ++ [element] }

/-- The draft with relationships that wait. -/
def await (draft : Draft) (relationships : List Declared.Relationship)
    (context : Option String) : Draft :=
  { draft with
    relationships := draft.relationships ++ relationships.map (⟨·, context⟩) }

/-- Whether an identifier is taken. -/
def isTaken (draft : Draft) (id : String) : Bool := (draft.registry.get? id).isSome

end Draft

/-- The identifier that an element has if it is given none: its name without blanks. -/
def defaultId (name : String) : String :=
  String.ofList (Text.withoutBlanks name.toList)

/-- An identifier that is given; an empty one counts as none. -/
def given? (identifier : Option String) : Option String :=
  identifier.filter (· ≠ "")

/-- The identifier of an element among its neighbours. -/
def localId (identifier : Option String) (name : String) : String :=
  (given? identifier).getD (defaultId name)

namespace Place

/-- The identifier of an element in the whole model. -/
def fullId (place : Place) (id : String) : String :=
  match place.parent with
  | some parent => if place.hierarchical then parent ++ "." ++ id else id
  | none => id

/-- The place of the members of a plain element. Groups leave the place as it is. -/
def inside (place : Place) (sort : Declared.PlainSort) (id : String) : Place :=
  match sort with
  | .group => { place with host := none }
  | .deploymentNode _ _ => { place with parent := some id, host := some id }
  | _ => { place with parent := some id, host := none }

/-- The place of the members of a deployment environment. -/
def insideEnvironment (place : Place) (id name : String) : Place :=
  { place with parent := some id, environment := some name, host := none }

/-- The sort of a plain element at a place. -/
def sortOf (place : Place) : Declared.PlainSort → Resolved.ElementSort
  | .person location => .person location
  | .softwareSystem location => .softwareSystem location
  | .container technology => .container technology
  | .component technology => .component technology
  | .group => .group
  | .deploymentNode technology instances =>
    .deploymentNode technology instances place.environment
  | .infrastructureNode technology => .infrastructureNode technology place.environment

/-- The element that a declaration makes at a place. -/
def element (place : Place) (sort : Declared.PlainSort) (details : Declared.Details)
    (id : String) : Resolved.Element where
  id := id
  name := details.name
  description := details.description
  tags := details.tags
  properties := details.properties
  perspectives := details.perspectives
  url := details.url
  parent := place.parent
  sort := place.sortOf sort

end Place

/-- Reports that an identifier is taken. -/
def reportTaken (id : String) (position : Option Position) : Reported Unit :=
  .report (.build (.duplicateElement id)) position

/-- A plain element joins the draft. Where its identifier got longer, the short one is an alias. -/
def Draft.addPlain (draft : Draft) (place : Place) (sort : Declared.PlainSort)
    (details : Declared.Details) (relationships : List Declared.Relationship) : Draft :=
  let own := localId details.identifier details.name
  let id := place.fullId own
  let added := draft.add (place.element sort details id)
  let aliased := match details.identifier with
    | some identifier =>
      if id ≠ own then { added with registry := added.registry.registerAlias identifier id }
      else added
    | none => added
  aliased.await relationships (some id)

mutual

/-- Registers an element and its members. -/
def registerElement (place : Place) (draft : Draft) : Declared.Element → Reported Draft
  | .plain sort details relationships members =>
    let id := place.fullId (localId details.identifier details.name)
    if draft.isTaken id then do
      reportTaken id details.position
      return draft
    else
      registerMembers (place.inside sort id)
        (draft.addPlain place sort details relationships) members
  | .environment heading relationships members =>
    let id := localId heading.identifier heading.name
    if draft.isTaken id then do
      reportTaken id heading.position
      return draft
    else do
      let added := draft.add
        { id, name := heading.name, parent := place.parent, sort := .deploymentEnvironment }
      let inner ← registerMembers (place.insideEnvironment id heading.name) added members
      return inner.await relationships (some id)
  | .deployed deployment relationships =>
    match place.host with
    | some host =>
      pure { draft with
        instances := draft.instances ++
          [⟨deployment, relationships, host, place.environment⟩] }
    | none => pure draft

/-- Registers elements one after the other. -/
def registerMembers (place : Place) (draft : Draft) : List Declared.Element → Reported Draft
  | [] => pure draft
  | member :: members => do
    let next ← registerElement place draft member
    registerMembers place next members

end

/-- Registers the elements of an enterprise that may be missing. -/
def registerEnterprise (place : Place) (draft : Draft) :
    Option Declared.Enterprise → Reported Draft
  | some enterprise => do
    let draft ← registerMembers place draft enterprise.members
    return draft.await enterprise.relationships none
  | none => pure draft

/-- Registers the elements of a model: those of the enterprise come after the other elements and
before the deployment environments. -/
def registerModel (hierarchical : Bool) (draft : Draft) (model : Declared.Model) :
    Reported Draft := do
  let place : Place := { hierarchical }
  let draft ← registerMembers place draft model.elements
  let draft ← registerEnterprise place draft model.enterprise
  let draft ← registerMembers place draft model.environments
  return draft.await model.relationships none

/-! ## Instances -/

/-- The class of what an instance is an instance of. -/
def instanceTarget : Declared.InstanceOf → ElementClass
  | .softwareSystem => .softwareSystem
  | .container => .container

/-- The identifier of an instance that is given none: it counts the instances of its target. -/
def instanceId (draft : Draft) (target : String) : String :=
  target ++ "-instance-" ++ toString (draft.targets.count target + 1)

/-- The element that a declared instance makes. -/
def instanceElement (waiting : WaitingInstance) (target : Entry) (id : String) :
    Resolved.Element where
  id := id
  name := target.name
  tags := waiting.declared.tags
  properties := waiting.declared.properties
  parent := some waiting.host
  sort :=
    match waiting.declared.instanceOf with
    | .softwareSystem =>
      .softwareSystemInstance target.id waiting.environment waiting.declared.groups
    | .container => .containerInstance target.id waiting.environment waiting.declared.groups

/-- Registers an instance that has waited. -/
def registerInstance (draft : Draft) (waiting : WaitingInstance) : Reported Draft := do
  let declared := waiting.declared
  let target? ← draft.registry.resolve declared.reference declared.position true
    (instanceTarget declared.instanceOf)
  match target? with
  | none => return draft
  | some target =>
    let id := (given? declared.identifier).getD (instanceId draft target.id)
    let draft := { draft with targets := draft.targets ++ [target.id] }
    if draft.isTaken id then do
      reportTaken id declared.position
      return draft
    else
      return (draft.add (instanceElement waiting target id)).await waiting.relationships (some id)

/-- Registers instances one after the other. -/
def registerInstances (draft : Draft) : List WaitingInstance → Reported Draft
  | [] => pure draft
  | waiting :: rest => do
    let next ← registerInstance draft waiting
    registerInstances next rest

end Blueprint.Build
