import Blueprint.Grammar.Progress
import Blueprint.Text.Blank

/-!
# Properties of elements and relationships

A property statement is a reserved word and its value: the rest of the line, a list of tags, or a
block of keys and values. Reading one yields a change, which is made where the statement stands only
after the whole statement has been read.
-/

namespace Blueprint.Grammar

open Blueprint.Text

/-- The words that start a property statement. -/
inductive PropertyWord where
  | description | technology | url | location | instances | tags | properties | perspectives
  deriving DecidableEq, Repr

/-- The property word that a token is. -/
def PropertyWord.ofKind? : Kind → Option PropertyWord
  | .keyword .description => some .description
  | .keyword .technology => some .technology
  | .keyword .url => some .url
  | .keyword .location => some .location
  | .keyword .instances => some .instances
  | .keyword .tags => some .tags
  | .keyword .properties => some .properties
  | .keyword .perspectives => some .perspectives
  | _ => none

/-- A change of an element or relationship. -/
inductive PropertyEdit where
  | description (value : String)
  | technology (value : String)
  | url (value : String)
  | location (value : String)
  | instances (value : String)
  | tags (entries : List String)
  | properties (entries : Properties)
  | perspectives (entries : Properties)
  deriving DecidableEq, Repr

/-- The entries of one map written over those of another. -/
def mergeInto (entries more : Properties) : Properties := entries.insertAll more.entries

/-- Reads an entry of a block of keys and values, given how to read a block inside it. The keys of
an inner block follow its own key after a dot. -/
def readEntry (block : Reader Properties) : NodeReader Properties Unit := do
  let key ← takeKey
  if ← isSign .leftBrace then
    let inner ← block
    modifyNode (·.insertAll
      (inner.entries.map fun entry => (key.text.shown ++ "." ++ entry.1, entry.2)))
  else
    let values ← takeValues key.line
    modifyNode (·.insert key.text.shown (spaced values).shown)

/-- Reads a block of keys and values, with at most the given count of blocks inside each other. -/
def readKeyValuesWithin : Nat → Reader Properties
  | 0 => return .empty
  | depth + 1 => do
    expectOpening
    readBlock (readEntry (readKeyValuesWithin depth)) .empty

/-- Reads a block of keys and values. There are no more blocks inside each other than tokens. -/
def readKeyValues : Reader Properties := do
  readKeyValuesWithin (← remaining).length

/-- Reads a property statement if one starts here with a word that is accepted. -/
def readProperty (accepts : PropertyWord → Bool) : Reader (Option PropertyEdit) := do
  let token ← current
  match PropertyWord.ofKind? token.kind with
  | none => return none
  | some word =>
    if accepts word then
      let _ ← advance
      let value := expectValue token.line (.valueFor token.lexeme)
      match word with
      | .description => return some (.description (← value))
      | .technology => return some (.technology (← value))
      | .url => return some (.url (← value))
      | .location => return some (.location (← value))
      | .instances => return some (.instances (← value))
      | .tags =>
        match ← takeValues token.line with
        | [] => failExpected .tags (← current)
        | values => return some (.tags (values.flatMap fun value => listEntries value.shown))
      | .properties => return some (.properties (← readKeyValues))
      | .perspectives => return some (.perspectives (← readKeyValues))
    else return none

end Blueprint.Grammar

namespace Blueprint.Declared

open Blueprint.Grammar

/-- The relationship after a property statement in its body. -/
def Relationship.edit (relationship : Relationship) : PropertyEdit → Relationship
  | .description value => { relationship with description := some value }
  | .technology value => { relationship with technology := some value }
  | .url value => { relationship with url := some value }
  | .tags entries => { relationship with tags := relationship.tags ++ entries }
  | .properties entries =>
    { relationship with properties := mergeInto relationship.properties entries }
  | .location _ | .instances _ | .perspectives _ => relationship

/-- The sort after a property statement: only the properties of the sort itself change. -/
def PlainSort.edit : PlainSort → PropertyEdit → PlainSort
  | .person _, .location value => .person (some value)
  | .softwareSystem _, .location value => .softwareSystem (some value)
  | .container _, .technology value => .container (some value)
  | .component _, .technology value => .component (some value)
  | .deploymentNode _ instances, .technology value => .deploymentNode (some value) instances
  | .deploymentNode technology _, .instances value => .deploymentNode technology (some value)
  | .infrastructureNode _, .technology value => .infrastructureNode (some value)
  | sort, _ => sort

/-- The common part after a property statement. -/
def Details.edit (details : Details) : PropertyEdit → Details
  | .description value => { details with description := some value }
  | .url value => { details with url := some value }
  | .tags entries => { details with tags := details.tags ++ entries }
  | .properties entries => { details with properties := mergeInto details.properties entries }
  | .perspectives entries =>
    { details with perspectives := mergeInto details.perspectives entries }
  | .technology _ | .location _ | .instances _ => details

/-- The instance after a property statement. -/
def Deployed.edit (deployment : Deployed) : PropertyEdit → Deployed
  | .tags entries => { deployment with tags := deployment.tags ++ entries }
  | .properties entries =>
    { deployment with properties := mergeInto deployment.properties entries }
  | _ => deployment

/-- The element after a property statement in its body. -/
def Element.edit (element : Element) (change : PropertyEdit) : Element :=
  match element with
  | .plain sort details relationships members =>
    .plain (sort.edit change) (details.edit change) relationships members
  | .environment heading relationships members => .environment heading relationships members
  | .deployed deployment relationships => .deployed (deployment.edit change) relationships

end Blueprint.Declared
