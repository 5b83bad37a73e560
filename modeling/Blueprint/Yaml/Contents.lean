import Blueprint.Settings.Reader
import Blueprint.Yaml.Node
import Blueprint.Yaml.Value

/-!
# What a YAML text holds

The values of a document are read from outside to inside: the collections that are met wait in
order, and the parts of one are read before those of the next. So of two faults the outer one
counts, and a collection inside of itself is read once. A map may take entries from other maps:
they come before its own, and a map that gives entries takes those of others first. A key that is
the sign `=` is a text.
-/

namespace Blueprint.Yaml

/-- What a text holds. -/
inductive Contents where
  /-- A scalar; a text without a document holds nothing. -/
  | scalar (value : Value)
  /-- A map with its entries. -/
  | mapping (entries : List (Value × Value))
  /-- A collection of another kind. -/
  | collection
  deriving Repr

namespace Contents

/-- How far a document is read. -/
structure Progress where
  /-- The nodes by their numbers. -/
  nodes : Array Node
  /-- The collections that were met. -/
  reached : List Nat := []
  /-- The collections whose parts are not read yet, in order. -/
  waiting : List Nat := []

/-- A step of reading. -/
abbrev Reader := StateT Progress (Except Fault)

/-- Ends reading a document that says what has no meaning. -/
def refuse {α : Type} : Reader α := throw .malformed

/-- The node with a number. -/
def node (number : Nat) : Reader Node := return ((← get).nodes[number]?).getD default

/-- The entries of a map. -/
def entriesOf (number : Nat) : Reader (List (Nat × Nat)) := do
  match (← node number).content with
  | .mapping entries => return entries
  | _ => refuse

/-- The items of a list. -/
def itemsOf (number : Nat) : Reader (List Nat) := do
  match (← node number).content with
  | .sequence items => return items
  | _ => refuse

/-- Changes a node. -/
def amend (number : Nat) (change : Node → Node) : Reader Unit :=
  modify fun progress => { progress with nodes := progress.nodes.modify number change }

/-- Gives a map other entries. -/
def setEntries (number : Nat) (entries : List (Nat × Nat)) : Reader Unit :=
  amend number fun node => { node with content := .mapping entries }

/-- The entry of a map with the first key of a kind: the entries before it, and it with those after
it. -/
def splitAtKey (kind : Kind) (entries : List (Nat × Nat)) :
    Reader (List (Nat × Nat) × List (Nat × Nat)) := do
  let nodes := (← get).nodes
  return entries.span fun entry => ((nodes[entry.1]?).map Node.kind) != some kind

/-- The count of entries of all maps. -/
def entryCount (nodes : Array Node) : Nat :=
  nodes.foldl (fun count node =>
    match node.content with
    | .mapping entries => count + entries.length
    | _ => count) 0

/-! ## Merging maps -/

/-- Makes a sign that is a key a text. -/
def settleKey (entry : Nat × Nat) : Reader Unit :=
  amend entry.1 fun node => if node.kind = .value then { node with kind := .text } else node

/-- Puts entries before those of a map. -/
def putBefore (number : Nat) (entries : List (Nat × Nat)) : Reader Unit := do
  let own ← entriesOf number
  own.forM settleKey
  setEntries number (entries ++ own)

/-- Takes the keys that merge other maps out of a map, and yields the entries of those maps, in at
most the given count of steps. -/
def takeMerged : Nat → Nat → Reader (List (Nat × Nat))
  | 0, _ => refuse
  | steps + 1, number => do
    let (before, rest) ← splitAtKey .merge (← entriesOf number)
    match rest with
    | [] => return []
    | (_, source) :: after =>
      setEntries number (before ++ after)
      let merge := fun other => do
        putBefore other (← takeMerged steps other)
        entriesOf other
      let first ← match (← node source).content with
        | .mapping _ => merge source
        | .sequence others => do
          let groups ← others.mapM merge
          pure groups.reverse.flatten
        | .scalar _ => refuse
      return first ++ (← takeMerged steps number)

/-- Takes the entries of other maps into a map. -/
def merge (number : Nat) : Reader Unit := do
  let steps := entryCount (← get).nodes + 1
  putBefore number (← takeMerged steps number)

/-! ## Values -/

/-- The text of a node in at most the given count of steps; a map stands for its sign's value. -/
def textOf : Nat → Nat → Reader String
  | 0, _ => refuse
  | steps + 1, number => do
    match (← node number).content with
    | .scalar text => return text
    | .sequence _ => refuse
    | .mapping entries =>
      match (← splitAtKey .value entries).2 with
      | (_, value) :: _ => textOf steps value
      | [] => refuse

/-- Lets a collection wait, unless it was met before. -/
def reach (number : Nat) : Reader Unit :=
  modify fun progress =>
    if progress.reached.contains number then progress
    else { progress with
      reached := number :: progress.reached, waiting := progress.waiting ++ [number] }

/-- The value of a node. -/
def valueOf (number : Nat) : Reader Value := do
  let found ← node number
  match found.kind with
  | .sequence | .mapping | .orderedMap | .pairs | .set =>
    reach number
    return .collection found.kind
  | kind =>
    let text ← textOf ((← get).nodes.size + 1) number
    match kind, found.content with
    | .moment, .mapping _ => throw .momentOfMap
    | _, _ => scalarValue kind number text

/-- The entries of a map with their values. -/
def readEntries (number : Nat) : Reader (List (Value × Value)) := do
  let _ ← entriesOf number
  merge number
  (← entriesOf number).foldlM (fun before entry => do
    let key ← valueOf entry.1
    if key.isKey then return insertEntry key (← valueOf entry.2) before else refuse) []

/-- Reads a pair, which is a map with one entry. -/
def readPair (number : Nat) : Reader Unit := do
  match ← entriesOf number with
  | [(key, value)] =>
    let _ ← valueOf key
    let _ ← valueOf value
  | _ => refuse

/-- Reads the parts of a collection. -/
def readParts (number : Nat) : Reader Unit := do
  match (← node number).kind with
  | .orderedMap | .pairs => (← itemsOf number).forM readPair
  | .sequence => (← itemsOf number).forM fun item => do let _ ← valueOf item
  | _ => let _ ← readEntries number

/-- Reads the parts of the collections that wait, at most the given count of them. -/
def readWaiting : Nat → Reader Unit
  | 0 => pure ()
  | steps + 1 => do
    match (← get).waiting with
    | [] => pure ()
    | number :: rest =>
      modify fun progress => { progress with waiting := rest }
      readParts number
      readWaiting steps

/-- Reads a document from its outermost node on. -/
def readFrom (root : Nat) : Reader Contents := do
  let steps := (← get).nodes.size
  match ← valueOf root with
  | .collection .mapping =>
    modify fun progress => { progress with waiting := [] }
    let entries ← readEntries root
    readWaiting steps
    return .mapping entries
  | .collection _ =>
    readWaiting steps
    return .collection
  | value => return .scalar value

/-- What a text holds. -/
def ofText (text : String) : Except Fault Contents := do
  let document ← Document.ofText text
  match document.root with
  | none => return .scalar .null
  | some root => (readFrom root).run' { nodes := document.nodes }

end Contents

/-! ## Loading settings -/

/-- A key as settings see it. -/
def settingsKey : Value → Settings.Key
  | .null => .other "None"
  | .bool true => .other "True"
  | .bool false => .other "False"
  | .integer value => .integer value
  | .float negative magnitude => .other (Number.Signed.number negative magnitude).text
  | .notANumber _ => .other Number.Signed.undefined.text
  | .moment moment => .other moment.text
  | .octets bytes => .other (Text.Quoted.ofBytes bytes)
  | .text text => .text text
  | .collection _ => .other ""

/-- A value as settings see it. -/
def settingsValue : Value → Settings.Value
  | .integer value => .integer value
  | .bool holds => .bool holds
  | _ => .other

/-- Loads a text for settings, given the wording of the faults. -/
def load (describe : Fault → String) (text : String) :
    Except Settings.LoadFault Settings.Contents :=
  match Contents.ofText text with
  | .error .malformed => .error (.malformed (describe .malformed))
  | .error fault => .error (.broken (describe fault))
  | .ok (.scalar .null) => .ok .nothing
  | .ok (.mapping entries) =>
    .ok (.mapping (entries.map fun entry => (settingsKey entry.1, settingsValue entry.2)))
  | .ok _ => .ok .other

end Blueprint.Yaml
