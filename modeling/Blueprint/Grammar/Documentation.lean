import Blueprint.Grammar.Property
import Blueprint.Number.Numeral

/-!
# Reading documentation and decisions

Sections and decisions are read as a whole. The documentation itself and the decisions belong to the
workspace as soon as they start.
-/

namespace Blueprint.Grammar

open Blueprint.Declared Blueprint.Text

/-- Reads the value of a property; an equals sign may stand before it. -/
def readAssigned (keyword : Token) : Reader String := do
  let token ← current
  if token.kind == .sign .equals && token.line == keyword.line then
    let _ ← advance
  expectValue keyword.line (.valueFor keyword.lexeme)

/-- Reads the value of a keyword as the place of a section. -/
def readOrderValue (keyword : Token) (value : String) : Reader Nat := do
  note (.order value)
  let digits := value.toList
  if digits.isEmpty || !digits.all isDigitSign then fail (.sectionOrder value) keyword
  else
    match Number.read digits with
    | .ok number => return number
    | .error fault => throw (.fault fault)

/-- Reads the place of a section among the others. -/
def readOrder (keyword : Token) : Reader Nat := do
  let value ← readAssigned keyword
  readOrderValue keyword value

/-- Reads a statement in the body of a section. -/
def readSectionStatement : NodeReader Section Unit := do
  let token ← current
  match token.kind with
  | .keyword .content =>
    let _ ← advance
    let content ← readAssigned token
    modifyNode fun part => { part with content }
  | .keyword .format =>
    let _ ← advance
    let format ← readAssigned token
    modifyNode fun part => { part with format }
  | .keyword .order =>
    let _ ← advance
    let order ← readOrder token
    modifyNode fun part => { part with order := some (order : Nat) }
  | _ => failUnexpected (.block .sectionHeading) token

/-- Reads a section from its keyword on. -/
def readSection : Reader Section := do
  let keyword ← advance
  let title ← expectString keyword.line .sectionTitle
  let arguments ← takePositional keyword.line 1
  let part : Section :=
    { position := some keyword.position, title, content := arguments.head?.getD "" }
  expectLineEnd keyword.line
  if ← isSign .leftBrace then
    let _ ← advance
    readBlock readSectionStatement part
  else return part

/-- Reads a statement in the body of a decision. -/
def readDecisionStatement : NodeReader Decision Unit := do
  let token ← current
  match token.kind with
  | .keyword .title =>
    let _ ← advance
    let title ← readAssigned token
    modifyNode fun decision => { decision with title }
  | .keyword .status =>
    let _ ← advance
    let status ← readAssigned token
    modifyNode fun decision => { decision with status }
  | .keyword .date =>
    let _ ← advance
    let date ← readAssigned token
    modifyNode fun decision => { decision with date := some date }
  | .keyword .format =>
    let _ ← advance
    let format ← readAssigned token
    modifyNode fun decision => { decision with format }
  | .keyword .content =>
    let _ ← advance
    let content ← readAssigned token
    modifyNode fun decision => { decision with content }
  | .identifier =>
    if token.lexeme == "links" then
      let _ ← advance
      if ← isSign .equals then
        let _ ← advance
      let entries ← readKeyValues
      modifyNode fun decision => { decision with links := mergeInto decision.links entries }
    else failUnexpected (.block .decision) token
  | _ => failUnexpected (.block .decision) token

/-- Reads a decision from its keyword on. -/
def readDecision : Reader Decision := do
  let keyword ← expect [.keyword .decision]
  let id ← expectSingle keyword.line .decisionId
  expectLineEnd keyword.line
  expectOpening
  readBlock readDecisionStatement { position := some keyword.position, id }

/-- Reads a decision of a block; it is added to the workspace when it has been read. -/
def readDecisionEntry : Reader Unit := do
  let decision ← readDecision
  modifyWorkspace fun workspace =>
    { workspace with decisions := workspace.decisions ++ [decision] }

/-- Reads a block of decisions. -/
def readDecisions : Reader Unit := do
  expectOpening
  readBlockOf readDecisionEntry

/-- Changes the documentation of the workspace. -/
def modifyDocumentation (change : Documentation → Documentation) : Reader Unit :=
  modifyWorkspace fun workspace =>
    { workspace with documentation := workspace.documentation.map change }

/-- Reads a statement in the block `documentation`. -/
def readDocumentationStatement : Reader Unit := do
  let token ← current
  match token.kind with
  | .keyword .content =>
    let _ ← advance
    let content ← readAssigned token
    modifyDocumentation fun block => { block with content := some content }
  | .keyword .format =>
    let _ ← advance
    let format ← readAssigned token
    modifyDocumentation fun block => { block with format }
  | .keyword .sectionHeading =>
    let part ← readSection
    modifyDocumentation fun block => { block with sections := block.sections ++ [part] }
  | .keyword .decisions =>
    let _ ← advance
    readDecisions
  | _ => failUnexpected (.block .documentation) token

/-- Reads the block `documentation`, which takes the place of an earlier one. -/
def readDocumentation : Reader Unit := do
  let keyword ← advance
  modifyWorkspace fun workspace =>
    { workspace with documentation := some { position := some keyword.position } }
  expectOpening
  readBlockOf readDocumentationStatement

end Blueprint.Grammar
