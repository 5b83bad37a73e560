import Blueprint.Grammar.Property

/-!
# Bodies of the model and its elements

Which statements a body takes depends on what it is the body of: the property words it accepts, the
elements it may hold, and whether a relationship in it may leave out its source.
-/

namespace Blueprint.Grammar

open Blueprint.Declared

/-- What a body is the body of. -/
inductive BodyKind where
  | model | person | softwareSystem | container | component | group | enterprise
  | deploymentEnvironment | deploymentNode | infrastructureNode | softwareSystemInstance
  | containerInstance
  deriving DecidableEq, Repr

namespace BodyKind

/-- The word that opens the body. -/
def keyword : BodyKind → Keyword
  | .model => .model
  | .person => .person
  | .softwareSystem => .softwareSystem
  | .container => .container
  | .component => .component
  | .group => .group
  | .enterprise => .enterprise
  | .deploymentEnvironment => .deploymentEnvironment
  | .deploymentNode => .deploymentNode
  | .infrastructureNode => .infrastructureNode
  | .softwareSystemInstance => .softwareSystemInstance
  | .containerInstance => .containerInstance

/-- The element that a word declares. -/
def ofElementKind? : Kind → Option BodyKind
  | .keyword .person => some .person
  | .keyword .softwareSystem => some .softwareSystem
  | .keyword .container => some .container
  | .keyword .component => some .component
  | .keyword .group => some .group
  | .keyword .enterprise => some .enterprise
  | .keyword .deploymentEnvironment => some .deploymentEnvironment
  | .keyword .deploymentNode => some .deploymentNode
  | .keyword .infrastructureNode => some .infrastructureNode
  | .keyword .softwareSystemInstance => some .softwareSystemInstance
  | .keyword .containerInstance => some .containerInstance
  | _ => none

/-- Whether a body takes an element. -/
def allows : BodyKind → BodyKind → Bool
  | .model, .person | .model, .softwareSystem | .model, .group | .model, .deploymentEnvironment
  | .model, .enterprise => true
  | .softwareSystem, .container | .softwareSystem, .group => true
  | .container, .component | .container, .group => true
  | .deploymentEnvironment, .deploymentNode => true
  | .deploymentNode, .deploymentNode | .deploymentNode, .infrastructureNode
  | .deploymentNode, .softwareSystemInstance | .deploymentNode, .containerInstance => true
  | .group, .person | .group, .softwareSystem | .group, .container | .group, .component
  | .group, .group => true
  | .enterprise, .person | .enterprise, .softwareSystem | .enterprise, .group => true
  | _, _ => false

/-- Whether a body takes a property statement. -/
def accepts : BodyKind → PropertyWord → Bool
  | .model, word => word == .properties
  | .enterprise, _ | .deploymentEnvironment, _ => false
  | .softwareSystemInstance, word | .containerInstance, word =>
    word == .tags || word == .properties
  | .deploymentNode, .instances => true
  | _, .instances => false
  | .person, .location | .softwareSystem, .location => true
  | _, .location => false
  | .container, .technology | .component, .technology | .deploymentNode, .technology
  | .infrastructureNode, .technology => true
  | _, .technology => false
  | _, _ => true

/-- Whether a relationship in the body may leave out its source. -/
def isSource : BodyKind → Bool
  | .model | .enterprise | .deploymentEnvironment => false
  | _ => true

/-- Whether the element has to have a body. -/
def needsBody : BodyKind → Bool
  | .group | .enterprise | .deploymentEnvironment => true
  | _ => false

/-- The count of arguments after the name, of elements that have a name. -/
def headerLimit? : BodyKind → Option Nat
  | .person | .softwareSystem => some 2
  | .container | .component | .infrastructureNode => some 3
  | .deploymentNode => some 4
  | .group | .enterprise | .deploymentEnvironment => some 0
  | .model | .softwareSystemInstance | .containerInstance => none

end BodyKind

/-- A statement of a body that has been read. -/
inductive BodyEntry where
  /-- A property statement. -/
  | edit (change : PropertyEdit)
  /-- A relationship. -/
  | relationship (relationship : Relationship)
  /-- An element. -/
  | member (element : Element)
  /-- The enterprise. -/
  | enterprise (enterprise : Enterprise)

end Blueprint.Grammar

namespace Blueprint.Declared

open Blueprint.Grammar

/-- The element with a further statement in its body. -/
def Element.add (element : Element) : BodyEntry → Element
  | .edit change => element.edit change
  | .relationship relationship => element.insertRelationship relationship
  | .member member => element.insertMember member
  | .enterprise _ => element

/-- The enterprise with a further statement in its body. -/
def Enterprise.add (enterprise : Enterprise) : BodyEntry → Enterprise
  | .relationship relationship =>
    { enterprise with relationships := enterprise.relationships ++ [relationship] }
  | .member member => { enterprise with members := enterprise.members ++ [member] }
  | .edit _ | .enterprise _ => enterprise

/-- The model with a further statement in its body; a further enterprise replaces the one before. -/
def Model.add (model : Model) : BodyEntry → Model
  | .edit (.properties entries) =>
    { model with properties := mergeInto model.properties entries }
  | .edit _ => model
  | .relationship relationship =>
    { model with relationships := model.relationships ++ [relationship] }
  | .member member => model.insertMember member
  | .enterprise enterprise => { model with enterprise := some enterprise }

end Blueprint.Declared

namespace Blueprint.Grammar

open Blueprint.Declared Blueprint.Text

/-- Reads a directive statement after its first token. One that is not known is reported and passed
over. -/
def readDirectiveAfter (token : Token) : Reader Unit := do
  let values ← takeValues token.line
  match token.kind with
  | .identifier => remark (.unknownDirective token.lexeme) token.position
  | kind =>
    if values.isEmpty then fail (.directiveWithoutValue token.lexeme) token
    let value := (spaced values).shown
    if kind == .directive .identifiers && value != "flat" && value != "hierarchical" then
      fail (.identifierMode value) token
    let name := String.ofList (token.lexeme.toList.drop 1)
    modifyWorkspace fun workspace =>
      { workspace with directives := workspace.directives ++ [⟨some token.position, name, value⟩] }

/-- Reads a directive statement. -/
def readDirective : Reader Unit := do
  let token ← advance
  readDirectiveAfter token

/-- Whether a token starts a directive. -/
def isDirective (token : Token) : Bool :=
  match token.kind with
  | .directive _ => true
  | .identifier => token.lexeme.toList.head? == some '!'
  | _ => false

/-- Reads the further parts of a dotted reference, at most the given count. -/
def readPathParts : Nat → Reader (List String)
  | 0 => return []
  | count + 1 => do
    if ← isSign .dot then
      let _ ← advance
      let part ← current
      if isReferencePart part then
        let _ ← advance
        let more ← readPathParts count
        return part.lexeme :: more
      else failExpected .pathPart part
    else return []

/-- Reads a reference on a line: a word, a dotted path, or a name as a string literal. -/
def readReference (line : Int) : Reader String := do
  let token ← current
  if token.line != line || !(isReferencePart token || token.kind == .string) then
    failExpected .reference token
  let _ ← advance
  if token.kind == .string then return token.text.shown
  let parts ← readPathParts (← remaining).length
  return String.intercalate "." (token.lexeme :: parts)

/-- The argument at a place of a list. -/
def argument (arguments : List String) (index : Nat) : Option String := arguments[index]?

/-- The entries of an argument that is a list. -/
def argumentEntries (arguments : List String) (index : Nat) : List String :=
  match arguments[index]? with
  | some text => listEntries text
  | none => []

/-- Whether a relationship takes a property statement. -/
def relationshipAccepts : PropertyWord → Bool
  | .description | .technology | .url | .tags | .properties => true
  | .location | .instances | .perspectives => false

/-- Reads a statement in the body of a relationship. -/
def readRelationshipStatement : NodeReader Relationship Unit := do
  let token ← current
  match ← readProperty relationshipAccepts with
  | some change => modifyNode (·.edit change)
  | none => failUnexpected (.block .relationship) token

/-- Reads the source of a relationship at its first token; before an arrow it may be left out. -/
def readOrigin (token : Token) (mayLeaveOut : Bool) : Reader String :=
  if token.kind == .sign .arrow then
    if mayLeaveOut then pure "this" else fail .withoutSource token
  else readReference token.line

/-- Reads a relationship whose statement starts at the given token, with the identifier written
before it. -/
def readRelationship (identifier : Option String) (first : Token) (mayLeaveOutSource : Bool) :
    Reader Relationship := do
  let token ← current
  let line := token.line
  let source ← readOrigin token mayLeaveOutSource
  let _ ← expect [.sign .arrow]
  let destination ← readReference line
  let arguments ← takePositional line 3
  let relationship : Relationship :=
    { position := some first.position
      source
      destination
      identifier
      description := argument arguments 0
      technology := argument arguments 1
      tags := argumentEntries arguments 2 }
  expectLineEnd line
  if ← opensBody line then
    readBlock readRelationshipStatement relationship
  else return relationship

/-- The declaration of an element from its name and the arguments after it, for the elements that
are declared in this way. -/
def plainElement? (kind : BodyKind) (identifier : Option String) (position : Position)
    (name : String) (arguments : List String) : Option Element :=
  let details : Details :=
    { position := some position, identifier, name, description := argument arguments 0 }
  let tagged := fun index => { details with tags := argumentEntries arguments index }
  let technology := argument arguments 1
  match kind with
  | .person => some (.plain (.person none) (tagged 1) [] [])
  | .softwareSystem => some (.plain (.softwareSystem none) (tagged 1) [] [])
  | .container => some (.plain (.container technology) (tagged 2) [] [])
  | .component => some (.plain (.component technology) (tagged 2) [] [])
  | .group => some (.plain .group details [] [])
  | .deploymentNode =>
    some (.plain (.deploymentNode technology (argument arguments 3)) (tagged 2) [] [])
  | .infrastructureNode => some (.plain (.infrastructureNode technology) (tagged 2) [] [])
  | .deploymentEnvironment =>
    some (.environment { position := some position, identifier, name } [] [])
  | .model | .enterprise | .softwareSystemInstance | .containerInstance => none

/-- Reads the header of a deployed instance after its keyword. -/
def readDeployed (instanceOf : InstanceOf) (identifier : Option String) (position : Position)
    (line : Int) : Reader Element := do
  let reference ← readReference line
  let arguments ← takePositional line 2
  return .deployed
    { position := some position
      identifier
      instanceOf
      reference
      groups := argumentEntries arguments 0
      tags := argumentEntries arguments 1 } []

/-- Reads the body of an element after its header, given how to read a body. -/
def readBody (body : BodyKind → Reader (List BodyEntry)) (kind : BodyKind) (keyword : Token) :
    Reader (List BodyEntry) := do
  expectLineEnd keyword.line
  if ← opensBody keyword.line then body kind
  else if kind.needsBody then failExpected (.bodyOf keyword.lexeme) (← current)
  else return []

/-- Reads the declaration of a deployed instance after its keyword, given how to read a body. -/
def readInstance (body : BodyKind → Reader (List BodyEntry)) (kind : BodyKind)
    (instanceOf : InstanceOf) (identifier : Option String) (first keyword : Token) :
    Reader BodyEntry := do
  let header ← readDeployed instanceOf identifier first.position keyword.line
  let entries ← readBody body kind keyword
  return .member (entries.foldl Element.add header)

/-- Reads the declaration of the enterprise after its keyword, given how to read a body. -/
def readEnterprise (body : BodyKind → Reader (List BodyEntry)) (identifier : Option String)
    (first keyword : Token) : Reader BodyEntry := do
  if identifier.isSome then fail .enterpriseIdentifier first
  let name ← expectString keyword.line (.nameOf keyword.lexeme)
  let entries ← readBody body .enterprise keyword
  return .enterprise (entries.foldl Enterprise.add { position := some first.position, name })

/-- Reads the declaration of another element after its keyword, given how to read a body. -/
def readPlain (body : BodyKind → Reader (List BodyEntry)) (kind : BodyKind)
    (identifier : Option String) (first keyword : Token) : Reader BodyEntry := do
  let name ← expectString keyword.line (.nameOf keyword.lexeme)
  let limit ← lookUp kind.headerLimit?
  let arguments ← takePositional keyword.line limit
  let header ← lookUp (plainElement? kind identifier first.position name arguments)
  let entries ← readBody body kind keyword
  return .member (entries.foldl Element.add header)

/-- Reads the declaration of an element from its keyword on, given how to read a body. -/
def readElement (body : BodyKind → Reader (List BodyEntry)) (kind : BodyKind)
    (identifier : Option String) (first : Token) : Reader BodyEntry := do
  let keyword ← advance
  match kind with
  | .softwareSystemInstance => readInstance body kind .softwareSystem identifier first keyword
  | .containerInstance => readInstance body kind .container identifier first keyword
  | .enterprise => readEnterprise body identifier first keyword
  | _ => readPlain body kind identifier first keyword

/-- Reads the identifier that a statement starts with, if it is followed by an equals sign. -/
def readIdentifier : Reader (Option String) := do
  match ← remaining with
  | name :: sign :: _ =>
    if name.kind == .identifier && sign.kind == .sign .equals && sign.line == name.line then
      let _ ← advance
      let _ ← advance
      return some name.lexeme
    else return none
  | _ => return none

/-- Reads a relationship or element of a body, given how to read the bodies inside it. -/
def readDeclaration (body : BodyKind → Reader (List BodyEntry)) (owner : BodyKind) :
    Reader BodyEntry := do
  let first ← current
  let identifier ← readIdentifier
  let token ← current
  if token.kind == .sign .arrow || startsRelationship (← remaining) then
    return .relationship (← readRelationship identifier first owner.isSource)
  else
    match BodyKind.ofElementKind? token.kind with
    | none => failUnexpected (.block owner.keyword) token
    | some kind =>
      if owner.allows kind then readElement body kind identifier first
      else fail (.notAllowed token.lexeme owner.keyword) token

/-- Reads a statement of a body, given how to read the bodies inside it. -/
def readBodyStatement (body : BodyKind → Reader (List BodyEntry)) (owner : BodyKind) :
    Reader (List BodyEntry) := do
  if isDirective (← current) then
    readDirective
    return []
  else
    match ← readProperty owner.accepts with
    | some change => return [.edit change]
    | none => return [← readDeclaration body owner]

/-- Reads a further statement of a body, given how to read the bodies inside it. -/
def readBodyEntry (body : BodyKind → Reader (List BodyEntry)) (owner : BodyKind) :
    NodeReader (List BodyEntry) Unit := do
  let more ← readBodyStatement body owner
  modifyNode (· ++ more)

/-- Reads a body with at most the given count of bodies inside each other. -/
def readEntriesWithin : Nat → BodyKind → Reader (List BodyEntry)
  | 0, _ => return []
  | depth + 1, owner => readBlock (readBodyEntry (readEntriesWithin depth) owner) []

/-- Reads a body. There are no more bodies inside each other than tokens. -/
def readEntries (owner : BodyKind) : Reader (List BodyEntry) := do
  readEntriesWithin (← remaining).length owner

/-- Reads a statement in the block `model`. -/
def readModelStatement : Reader Unit := do
  let entries ← readBodyStatement readEntries .model
  modifyWorkspace fun workspace =>
    { workspace with model := workspace.model.map (entries.foldl Model.add) }

/-- Reads the block `model`; what it declares is added to the model there is. -/
def readModel : Reader Unit := do
  let keyword ← advance
  modifyWorkspace fun workspace =>
    { workspace with
      model := some (workspace.model.getD { position := some keyword.position }) }
  expectOpening
  readBlockOf readModelStatement

end Blueprint.Grammar
