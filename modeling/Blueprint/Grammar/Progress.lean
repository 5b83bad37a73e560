import Blueprint.Declared.Workspace
import Blueprint.Diagnostic.Basic
import Blueprint.Grammar.Line
import Blueprint.Number.Numeral

/-!
# Reading declarations from tokens

A reading step takes tokens from the front, adds to the workspace that is being read, and reports
what is wrong. A statement that fails is given up: its error is caught where its block is read, the
rest of it is passed over, and reading goes on. Reading stops early when the limit of errors is
reached.
-/

namespace Blueprint.Grammar

/-- Something that happens while reading and that is not seen in what is read. -/
inductive Event where
  /-- A token is read as the key of an entry, whatever it is. -/
  | key (token : Token)
  /-- A value is read as the place of a section. -/
  | order (value : String)

/-- The token that is read as a key. -/
def Event.key? : Event → Option Token
  | .key token => some token
  | .order _ => none

/-- The value that is read as a place. -/
def Event.order? : Event → Option String
  | .key _ => none
  | .order value => some value

/-- How far reading has come. -/
structure Progress where
  /-- The tokens that are not read yet; the end of the input stays the last of them. -/
  rest : List Token
  /-- What is read so far. -/
  workspace : Declared.Workspace
  /-- What is wrong so far. -/
  diagnostics : List Diagnostic
  /-- The count of statements that failed. -/
  errors : Nat
  /-- Whether a block without an end has been reported. -/
  endReported : Bool
  /-- The count of errors at which reading stops. -/
  limit : Int
  /-- What happened so far; no step of reading looks at it. -/
  trace : List Event := []

/-- The tokens that were read as keys of entries. -/
def Progress.keys (progress : Progress) : List Token := progress.trace.filterMap Event.key?

/-- The values that were read as places of sections. -/
def Progress.orders (progress : Progress) : List String := progress.trace.filterMap Event.order?

/-- Why a step does not go on. -/
inductive Halt where
  /-- The statement fails. -/
  | failed (error : GrammarError)
  /-- The limit of errors is reached. -/
  | stopped
  /-- A number cannot be read. -/
  | fault (fault : Number.Fault)
  /-- No token is left, or a table has no entry. -/
  | missing

/-- A step of reading. What was read and reported before a halt stays. -/
abbrev Reader := ExceptT Halt (StateM Progress)

/-- The tokens that are not read yet. -/
def remaining : Reader (List Token) := return (← get).rest

/-- The next token. Without one reading does not go on. -/
def current : Reader Token := do
  match (← get).rest with
  | [] => throw .missing
  | token :: _ => return token

/-- The entry that a table has. Without one reading does not go on. -/
def lookUp {α : Type} : Option α → Reader α
  | none => throw .missing
  | some entry => return entry

/-- The tokens without the first one; the end of the input stays. -/
def dropToken : List Token → List Token
  | _ :: next :: rest => next :: rest
  | rest => rest

/-- Takes the next token. -/
def advance : Reader Token := do
  let token ← current
  modify fun progress => { progress with rest := dropToken progress.rest }
  return token

/-- Notes what happens. -/
def note (event : Event) : Reader Unit :=
  modify fun progress => { progress with trace := progress.trace ++ [event] }

/-- Takes the next token as the key of an entry. -/
def takeKey : Reader Token := do
  let key ← advance
  note (.key key)
  return key

/-- Goes on with other tokens. -/
def continueWith (tokens : List Token) : Reader Unit :=
  modify fun progress => { progress with rest := tokens }

/-- Changes the workspace that is being read. -/
def modifyWorkspace (change : Declared.Workspace → Declared.Workspace) : Reader Unit :=
  modify fun progress => { progress with workspace := change progress.workspace }

/-- The statement fails at a token. -/
def fail {α : Type} (issue : GrammarIssue) (token : Token) : Reader α :=
  throw (.failed ⟨issue, token⟩)

/-- Something else is wanted in place of a token. -/
def failExpected {α : Type} (wanted : Wanted) (token : Token) : Reader α :=
  fail (.expected wanted token.found) token

/-- Nothing like a token is expected at a place. -/
def failUnexpected {α : Type} (place : Place) (token : Token) : Reader α :=
  fail (.unexpected token.found place) token

/-- Reports a problem without counting it. -/
def remark (issue : Issue) (position : Position) : Reader Unit :=
  modify fun progress =>
    { progress with diagnostics := progress.diagnostics ++ [.of issue (some position)] }

/-- Reports a failed statement, and stops reading when that makes the limit full. -/
def report (error : GrammarError) : Reader Unit := do
  remark (.grammar error.issue) error.token.position
  modify fun progress => { progress with errors := progress.errors + 1 }
  let progress ← get
  if progress.limit ≤ progress.errors then
    remark (.tooManyErrors progress.errors) error.token.position
    throw .stopped

/-- Whether the next token is of a kind. -/
def isNext (kind : Kind) : Reader Bool := return (← current).kind == kind

/-- Whether the next token is a sign. -/
def isSign (sign : Sign) : Reader Bool := isNext (.sign sign)

/-- Takes the next token if it is of one of the kinds. -/
def expect (kinds : List Kind) : Reader Token := do
  let token ← current
  if kinds.contains token.kind then advance else failExpected (.oneOf kinds) token

/-- Takes an opening brace. -/
def expectOpening : Reader Unit := do
  let _ ← expect [.sign .leftBrace]

/-- Takes a string literal on a line. -/
def expectString (line : Int) (wanted : Wanted) : Reader String := do
  let token ← current
  if token.kind == .string && token.line == line then
    let _ ← advance
    return token.text.shown
  else failExpected wanted token

/-- Takes one word, string literal or whole number on a line. -/
def expectSingle (line : Int) (wanted : Wanted) : Reader String := do
  let token ← current
  if token.line == line &&
      (token.kind == .string || token.kind == .identifier || token.kind == .integer) then
    let _ ← advance
    return token.text.shown
  else failExpected wanted token

/-- Takes the values of the rest of a line. -/
def takeValues (line : Int) : Reader (List Text) := do
  let tokens ← remaining
  continueWith (afterLine line tokens)
  return lineValues line tokens

/-- Takes the rest of a line as one value, which has to have a token. -/
def expectValue (line : Int) (wanted : Wanted) : Reader String := do
  match ← takeValues line with
  | [] => failExpected wanted (← current)
  | values => return (spaced values).shown

/-- Takes the arguments at the start of a line, up to the given count. -/
def takePositional (line : Int) (limit : Nat) : Reader (List String) := do
  let tokens ← remaining
  let arguments := positional line limit tokens
  continueWith (tokens.drop arguments.length)
  return arguments.map (·.text.shown)

/-- Fails if a line has further tokens before a brace. -/
def expectLineEnd (line : Int) : Reader Unit := do
  let token ← current
  if onLine line token then failUnexpected .line token

/-- Takes an opening brace if it stands on a line, and says whether it did. -/
def opensBody (line : Int) : Reader Bool := do
  let token ← current
  if token.kind == .sign .leftBrace && token.line == line then
    let _ ← advance
    return true
  else return false

/-- Passes over what is left of a statement that failed at a token. -/
def recoverFrom (token : Token) : Reader Unit := do
  continueWith (afterStatement token.line 0 (← remaining))

/-- Reads a statement, and goes on in another way if it fails. -/
def attempt {m : Type → Type} [MonadExceptOf Halt m] {α : Type} (statement : m α)
    (recover : GrammarError → m α) : m α :=
  tryCatch statement fun
    | .failed error => recover error
    | halt => throw halt

/-- Reads a statement outside of blocks; if it fails, it is reported and passed over. -/
def readOrSkip (statement : Reader Unit) : Reader Unit :=
  attempt statement fun error => do
    report error
    recoverFrom error.token

/-- Reports a statement of a block that failed and passes over the rest of it. If that takes no
token, given those from before the statement, the next one is taken. -/
def passFailed (before : List Token) (error : GrammarError) : Reader Unit := do
  report error
  recoverFrom error.token
  let after ← remaining
  let next ← current
  if after.length == before.length && next.kind != .sign .rightBrace &&
      next.kind != .endOfInput then
    let _ ← advance

/-- Whether a block without an end has been reported. -/
def isEndReported : Reader Bool := return (← get).endReported

/-- Reports a block that reaches the end of the input; that is done for one block only. -/
def reportUnclosed (token : Token) : Reader Unit := do
  modify fun progress => { progress with endReported := true }
  report ⟨.unclosedBlock, token⟩

/-! ## Bodies of nodes

The statements in the body of a node change the node while they are read. So a statement that fails
leaves the node with whatever it has changed by then.
-/

/-- A step of reading in the body of a node. What was changed in the node before a halt stays, like
what was read and reported. -/
abbrev NodeReader (ν : Type) := ExceptT Halt (StateT ν (StateM Progress))

variable {ν : Type}

/-- A step that does not look at the node. -/
instance : MonadLift Reader (NodeReader ν) where
  monadLift step := ExceptT.mk (StateT.lift step.run)

/-- The node as it is. -/
def currentNode : NodeReader ν ν := getThe ν

/-- Changes the node. -/
def modifyNode (change : ν → ν) : NodeReader ν Unit := modifyThe ν change

/-- Reads a statement of a body. If it fails, it is reported and passed over. -/
def readStatement (statement : NodeReader ν Unit) : NodeReader ν Unit := do
  let before ← remaining
  attempt statement fun error => passFailed before error

/-- Reads at most the given count of statements of a body, and its closing brace. -/
def readStatementsWithin (statement : NodeReader ν Unit) : Nat → NodeReader ν Unit
  | 0 => return ()
  | count + 1 => do
    let token ← current
    if token.kind == .endOfInput then
      if !(← isEndReported) then reportUnclosed token
    else if token.kind == .sign .rightBrace then
      let _ ← advance
    else
      readStatement statement
      readStatementsWithin statement count

/-- Reads the statements of a body after its opening brace, and its closing brace. Every statement
takes a token, so there are no more statements than tokens. -/
def readStatements (statement : NodeReader ν Unit) : NodeReader ν Unit := do
  readStatementsWithin statement (← remaining).length

/-- The node after a step on it. -/
def NodeReader.fill (step : NodeReader ν Unit) (node : ν) : Reader ν :=
  ExceptT.mk do
    let (result, node) ← step.run.run node
    return result.map fun _ => node

/-- Reads the body of a node after its opening brace. -/
def readBlock (statement : NodeReader ν Unit) (node : ν) : Reader ν :=
  (readStatements statement).fill node

/-- Reads a block whose statements change the workspace only. -/
def readBlockOf (statement : Reader Unit) : Reader Unit :=
  readBlock (liftM statement) ()

end Blueprint.Grammar
