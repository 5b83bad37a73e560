import Blueprint.Yaml.Fault
import Blueprint.Yaml.Kind
import Blueprint.Yaml.Stream

/-!
# The nodes of a YAML document

A text holds at most one document, and a document one node: a scalar, a list or a map. The nodes
of a document are numbered, and a name stands for the number of the node that it was given to. So
a node can have several places, and a collection can be inside of itself.
-/

namespace Blueprint.Yaml

/-- What a node holds; the parts of a collection are given by their numbers. -/
inductive Content where
  /-- A scalar with its text. -/
  | scalar (text : String)
  /-- A list. -/
  | sequence (items : List Nat)
  /-- A map, as it is written. -/
  | mapping (entries : List (Nat × Nat))
  deriving DecidableEq, Repr, Inhabited

/-- A node. -/
structure Node where
  /-- What it is. -/
  kind : Kind
  /-- What it holds. -/
  content : Content
  deriving DecidableEq, Repr, Inhabited

namespace Node

/-- What is read so far of a document. -/
structure Pending where
  /-- The tokens that are not read yet. -/
  tokens : List Token
  /-- Why no tokens follow them, unless the text ends. -/
  fault : Option Fault
  /-- The nodes by their numbers. -/
  nodes : Array Node := #[]
  /-- The named nodes. -/
  anchors : List (String × Nat) := []
  /-- What the handles of tags stand for. -/
  handles : List (String × String) := []

/-- A step of reading; a text that is no document ends it. -/
abbrev Reader := StateT Pending (Except Fault)

/-- Ends reading. -/
def refuse {α : Type} : Reader α := throw .malformed

/-- Ends reading unless a condition holds. -/
def require (condition : Bool) : Reader Unit := if condition then pure () else refuse

/-- The next token. -/
def peek : Reader (Option Token) := do
  let pending ← get
  match pending.tokens.head?, pending.fault with
  | none, some fault => throw fault
  | next, _ => return next

/-- Takes the next token. -/
def drop : Reader Unit := modify fun pending => { pending with tokens := pending.tokens.tail }

/-- Takes the next token if it is the given one, and says whether it was. -/
def accept (token : Token) : Reader Bool := do
  if (← peek) == some token then
    drop
    return true
  else return false

/-- Takes the given token, which has to be next. -/
def demand (token : Token) : Reader Unit := do require (← accept token)

/-- Whether the next token is one of the given ones, or there is none. -/
def isNextIn (tokens : List Token) : Reader Bool := do
  return match ← peek with
    | some token => tokens.contains token
    | none => true

/-- Adds a node and gives it a number. -/
def add (node : Node) : Reader Nat :=
  modifyGet fun pending => (pending.nodes.size, { pending with nodes := pending.nodes.push node })

/-- Gives a node its content. -/
def fill (number : Nat) (content : Content) : Reader Unit :=
  modify fun pending =>
    { pending with nodes := pending.nodes.modify number fun node => { node with content } }

/-- What a tag stands for. -/
def meaning (tag : Tag) : Reader String := do
  match tag.handle with
  | none => return tag.suffix
  | some handle =>
    match (← get).handles.lookup handle with
    | some start => return start ++ tag.suffix
    | none => refuse

/-- Gives a node a name, which has to be new. -/
def nameNew (anchor : Option String) (number : Nat) : Reader Unit := do
  match anchor with
  | none => pure ()
  | some name =>
    require ((← get).anchors.lookup name).isNone
    modify fun pending => { pending with anchors := (name, number) :: pending.anchors }

/-- The name and the tag before a node, in any order. -/
def readNameAndTag : Reader (Option String × Option String) := do
  match ← peek with
  | some (.anchor name) =>
    drop
    match ← peek with
    | some (.tag tag) =>
      drop
      return (some name, some (← meaning tag))
    | _ => return (some name, none)
  | some (.tag tag) =>
    drop
    match ← peek with
    | some (.anchor name) =>
      drop
      return (some name, some (← meaning tag))
    | _ => return (none, some (← meaning tag))
  | _ => return (none, none)

/-- The tag that leaves a node to its form. -/
def plainTag : String := "!"

/-- The kind of a collection that is of a kind unless its tag says otherwise. -/
def collectionKind (usual : Kind) : Option String → Kind
  | some tag => if tag = plainTag then usual else .ofTag tag
  | none => usual

/-- The kind of a scalar. -/
def scalarKind (text : String) (form : ScalarForm) : Option String → Kind
  | some tag => if tag = plainTag then .ofForm text else .ofTag tag
  | none => if form = .plain then .ofForm text else .text

/-- Adds a scalar. -/
def addScalar (anchor tag : Option String) (text : String) (form : ScalarForm) : Reader Nat := do
  let number ← add ⟨scalarKind text form tag, .scalar text⟩
  nameNew anchor number
  return number

/-- Adds the node where none is written. -/
def addEmpty : Reader Nat := addScalar none none "" .plain

/-- Adds the empty node after a name or a tag. -/
def addEmptyAfter (anchor tag : Option String) : Reader Nat :=
  if anchor.isNone && tag.isNone then refuse else addScalar anchor tag "" .plain

/-- Adds a collection, which has its name inside of itself too. -/
def addCollection (anchor : Option String) (kind : Kind) (read : Reader Content) : Reader Nat := do
  let number ← add ⟨kind, .sequence []⟩
  nameNew anchor number
  fill number (← read)
  return number

mutual

/-- Reads a node with at most the given count of steps: one that is written by indentation only
where such nodes may stand, and a list without indentation of its own only as a value. -/
def read : Nat → Bool → Bool → Reader Nat
  | 0, _, _ => refuse
  | steps + 1, block, indentless => do
    match ← peek with
    | some (.alias name) =>
      drop
      match (← get).anchors.lookup name with
      | some number => return number
      | none => refuse
    | _ =>
      let (anchor, tag) ← readNameAndTag
      let addSequence := addCollection anchor (collectionKind .sequence tag)
      let addMapping := addCollection anchor (collectionKind .mapping tag)
      match ← peek with
      | some .blockEntry =>
        if indentless then addSequence (.sequence <$> readLooseItems steps)
        else addEmptyAfter anchor tag
      | some (.scalar text form) =>
        drop
        addScalar anchor tag text form
      | some .openSequence =>
        drop
        addSequence (.sequence <$> readFlowItems steps true)
      | some .openMapping =>
        drop
        addMapping (.mapping <$> readFlowEntries steps true)
      | some .blockSequence =>
        if block then
          drop
          addSequence (.sequence <$> readBlockItems steps)
        else addEmptyAfter anchor tag
      | some .blockMapping =>
        if block then
          drop
          addMapping (.mapping <$> readBlockEntries steps)
        else addEmptyAfter anchor tag
      | _ => addEmptyAfter anchor tag

/-- Reads the items of a list by indentation, up to its end. -/
def readBlockItems : Nat → Reader (List Nat)
  | 0 => refuse
  | steps + 1 => do
    if ← accept .blockEntry then
      let item ← if ← isNextIn [.blockEntry, .blockEnd] then addEmpty else read steps true false
      return item :: (← readBlockItems steps)
    else
      demand .blockEnd
      return []

/-- Reads the items of a list without indentation of its own. -/
def readLooseItems : Nat → Reader (List Nat)
  | 0 => refuse
  | steps + 1 => do
    if ← accept .blockEntry then
      let item ←
        if ← isNextIn [.blockEntry, .key, .value, .blockEnd] then addEmpty
        else read steps true false
      return item :: (← readLooseItems steps)
    else return []

/-- Reads the entries of a map by indentation, up to its end. -/
def readBlockEntries : Nat → Reader (List (Nat × Nat))
  | 0 => refuse
  | steps + 1 => do
    if ← accept .key then
      let key ←
        if ← isNextIn [.key, .value, .blockEnd] then addEmpty else read steps true true
      let value ←
        if ← accept .value then
          if ← isNextIn [.key, .value, .blockEnd] then addEmpty else read steps true true
        else addEmpty
      return (key, value) :: (← readBlockEntries steps)
    else
      demand .blockEnd
      return []

/-- Reads the value after a key inside of brackets. -/
def readFlowValue : Nat → Token → Reader Nat
  | 0, _ => refuse
  | steps + 1, close => do
    if ← accept .value then
      if ← isNextIn [.flowEntry, close] then addEmpty else read steps false false
    else addEmpty

/-- Reads a key after its mark inside of brackets. -/
def readFlowKey : Nat → Token → Reader Nat
  | 0, _ => refuse
  | steps + 1, close => do
    if ← isNextIn [.value, .flowEntry, close] then addEmpty else read steps false false

/-- Reads the items of a list in brackets, up to its end. A single pair counts as a map. -/
def readFlowItems : Nat → Bool → Reader (List Nat)
  | 0, _ => refuse
  | steps + 1, first => do
    if ← accept .closeSequence then return []
    else
      if !first then demand .flowEntry
      if ← accept .closeSequence then return []
      else
        let item ←
          if ← accept .key then
            addCollection none .mapping do
              let key ← readFlowKey steps .closeSequence
              let value ← readFlowValue steps .closeSequence
              return .mapping [(key, value)]
          else read steps false false
        return item :: (← readFlowItems steps false)

/-- Reads the entries of a map in brackets, up to its end. -/
def readFlowEntries : Nat → Bool → Reader (List (Nat × Nat))
  | 0, _ => refuse
  | steps + 1, first => do
    if ← accept .closeMapping then return []
    else
      if !first then demand .flowEntry
      if ← accept .closeMapping then return []
      else
        let entry ←
          if ← accept .key then do
            let key ← readFlowKey steps .closeMapping
            let value ← readFlowValue steps .closeMapping
            pure (key, value)
          else do
            let key ← read steps false false
            let value ← addEmpty
            pure (key, value)
        return entry :: (← readFlowEntries steps false)

end

/-- The handles that need no directive. -/
def commonHandles : List (String × String) := [("!", "!"), ("!!", Kind.commonTag "")]

/-- Reads at most the given count of directives before a document. -/
def readDirectives : Nat → Bool → Reader Unit
  | 0, _ => refuse
  | steps + 1, versionSeen => do
    match ← peek with
    | some (.version major _) =>
      require (!versionSeen && major == 1)
      drop
      readDirectives steps true
    | some (.tagHandle handle meaning) =>
      require ((← get).handles.lookup handle).isNone
      modify fun pending => { pending with handles := (handle, meaning) :: pending.handles }
      drop
      readDirectives steps versionSeen
    | some .otherDirective =>
      drop
      readDirectives steps versionSeen
    | _ => pure ()

/-- Whether a token can only stand at the start or the end of a document. -/
def isMark : Token → Bool
  | .version _ _ | .tagHandle _ _ | .otherDirective | .documentStart | .documentEnd => true
  | _ => false

/-- Reads the content of a document after its mark. -/
def readContent (steps : Nat) : Reader Nat := do
  match ← peek with
  | none => addEmpty
  | some token => if isMark token then addEmpty else read steps true false

/-- Takes the marks of the end of a document. -/
def dropEnds : Nat → Reader Unit
  | 0 => pure ()
  | steps + 1 => do
    if ← accept .documentEnd then dropEnds steps

/-- Nothing may follow a document. What follows is refused after its directives. -/
def expectEnd (steps : Nat) : Reader Unit := do
  dropEnds steps
  if (← peek).isSome then
    modify fun pending => { pending with handles := [] }
    readDirectives steps false
    refuse

/-- Reads the only document of a text, if there is one. -/
def readDocument (steps : Nat) : Reader (Option Nat) := do
  match ← peek with
  | none => return none
  | some token =>
    let node ←
      if isMark token && token != .documentEnd then do
        readDirectives steps false
        demand .documentStart
        modify fun pending => { pending with handles := pending.handles ++ commonHandles }
        readContent steps
      else do
        modify fun pending => { pending with handles := commonHandles }
        read steps true false
    expectEnd steps
    return some node

end Node

/-- A document: its nodes by their numbers, and the number of the outermost one, if there is one. -/
structure Document where
  /-- The nodes. -/
  nodes : Array Node
  /-- The number of the outermost node. -/
  root : Option Nat
  deriving Repr

/-- The only document that a text holds. -/
def Document.ofText (text : String) : Except Fault Document := do
  let scanned := Scanned.ofText text.toList
  let steps := 2 * scanned.tokens.length + 2
  let (root, pending) ← (Node.readDocument steps).run
    { tokens := scanned.tokens, fault := scanned.fault }
  return ⟨pending.nodes, root⟩

end Blueprint.Yaml
