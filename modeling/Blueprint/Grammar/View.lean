import Blueprint.Grammar.Body

/-!
# Reading views

A view is read from its header, which says what the view is about, and its body.
-/

namespace Blueprint.Grammar

open Blueprint.Declared Blueprint.Text

/-- Reads a scope on a line: a star for everything, or a reference. -/
def readScope (line : Int) : Reader String := do
  let token ← current
  if token.kind == .sign .star && token.line == line then
    let _ ← advance
    return "*"
  else readReference line

/-- The words that declare views. -/
inductive ViewWord where
  | systemLandscape | systemContext | container | component | dynamic | deployment | filtered
  | custom | image
  deriving DecidableEq, Repr

/-- The view that a word declares. -/
def ViewWord.ofKind? : Kind → Option ViewWord
  | .keyword .systemLandscape => some .systemLandscape
  | .keyword .systemContext => some .systemContext
  | .keyword .container => some .container
  | .keyword .component => some .component
  | .keyword .dynamic => some .dynamic
  | .keyword .deployment => some .deployment
  | .keyword .filtered => some .filtered
  | .keyword .custom => some .custom
  | .keyword .image => some .image
  | _ => none

/-- Reads the key and the description at the end of a header. -/
def readKeyAndDescription (position : Position) (line : Int) : Reader ViewDetails := do
  let arguments ← takePositional line 2
  return { position := some position
           key := argument arguments 0
           description := argument arguments 1 }

/-- Reads the header of a view after its keyword. -/
def readViewHeader (word : ViewWord) (position : Position) (line : Int) : Reader View := do
  match word with
  | .systemLandscape => return ⟨← readKeyAndDescription position line, .systemLandscape⟩
  | .systemContext =>
    let system ← readReference line
    return ⟨← readKeyAndDescription position line, .systemContext system⟩
  | .container =>
    let system ← readReference line
    return ⟨← readKeyAndDescription position line, .container system⟩
  | .component =>
    let container ← readReference line
    return ⟨← readKeyAndDescription position line, .component container⟩
  | .dynamic =>
    let scope ← readScope line
    return ⟨← readKeyAndDescription position line, .dynamic scope []⟩
  | .deployment =>
    let scope ← readScope line
    let environment ← expectSingle line .environment
    let system := if scope = "*" then none else some scope
    return ⟨← readKeyAndDescription position line, .deployment system environment⟩
  | .filtered =>
    let base ← expectSingle line .baseViewKey
    let mode ← expect [.keyword .including, .keyword .excluding]
    let tags ← expectSingle line .filterTags
    return ⟨← readKeyAndDescription position line, .filtered base mode.lexeme (listEntries tags)⟩
  | .custom =>
    let arguments ← takePositional line 3
    return ⟨{ position := some position
              key := argument arguments 0
              title := argument arguments 1
              description := argument arguments 2 }, .custom⟩
  | .image =>
    let scope ← readScope line
    let arguments ← takePositional line 1
    return ⟨{ position := some position, key := argument arguments 0 }, .image scope none none⟩

/-- Reads one side of an expression. -/
def readTerm (line : Int) : Reader String := do
  let token ← current
  if token.kind == .sign .star && token.line == line then
    let _ ← advance
    return "*"
  else if token.kind == .string && token.line == line then
    let _ ← advance
    return token.text.shown
  else if isReferencePart token then readReference line
  else failUnexpected .expression token

/-- Reads the terms of a line, at most the given count. -/
def readTermsWithin (line : Int) : Nat → Reader (List String)
  | 0 => return []
  | count + 1 => do
    if onLine line (← current) then
      let term ← readTerm line
      let more ← readTermsWithin line count
      return term :: more
    else return []

/-- Reads the terms of a line. -/
def readTerms (line : Int) : Reader (List String) := do
  readTermsWithin line (← remaining).length

/-- Reads the expressions of a line, at most the given count: a term, or two terms with an arrow
between them. -/
def readExpressionsWithin (line : Int) : Nat → Reader (List String)
  | 0 => return []
  | count + 1 => do
    if onLine line (← current) then
      let left ← readTerm line
      let next ← current
      if next.kind == .sign .arrow && next.line == line then
        let _ ← advance
        let right ← readTerm line
        let more ← readExpressionsWithin line count
        return (left ++ " -> " ++ right) :: more
      else
        let more ← readExpressionsWithin line count
        return left :: more
    else return []

/-- Reads the expressions after a keyword; there has to be one. -/
def readExpressions (keyword : Token) : Reader (List Selection) := do
  match ← readExpressionsWithin keyword.line (← remaining).length with
  | [] => failExpected (.expressionAfter keyword.lexeme) (← current)
  | expressions =>
    return expressions.map fun expression => ⟨some keyword.position, expression⟩

/-- Takes a whole number on a line if it stands next. -/
def takeInteger? (line : Int) : Reader (Option Int) := do
  let token ← current
  if onLine line token then
    match token.kind, token.value with
    | .integer, .integer number =>
      let _ ← advance
      return some number
    | _, _ => return none
  else return none

/-- Takes a word or string literal on a line if it stands next. -/
def takeWord? (line : Int) : Reader (Option String) := do
  let token ← current
  if onLine line token && (token.kind == .identifier || token.kind == .string) then
    let _ ← advance
    return some token.text.shown
  else return none

/-- Reads a layout after its keyword: a direction and up to two distances. -/
def readAutoLayout (keyword : Token) : Reader AutoLayout := do
  let line := keyword.line
  let direction ← takeWord? line
  let rankSeparation ← takeInteger? line
  let nodeSeparation ← takeInteger? line
  expectLineEnd line
  return ⟨some keyword.position, direction, rankSeparation, nodeSeparation⟩

/-- Reads a step of an animation. -/
def readAnimationStep : NodeReader Animation Unit := do
  let first ← current
  match ← readTerms first.line with
  | [] => failUnexpected (.block .animation) first
  | terms => modifyNode fun animation => { animation with steps := animation.steps ++ [terms] }

/-- Reads an animation after its keyword; each line of its block is a step. -/
def readAnimation (keyword : Token) : Reader Animation := do
  expectOpening
  readBlock readAnimationStep ⟨some keyword.position, []⟩

/-- Reads a step of a dynamic view. -/
def readInteraction : Reader Relationship := do
  let first ← current
  if startsRelationship (← remaining) then readRelationship none first false
  else failExpected .interaction first

/-- Reads a step of a dynamic view and adds it to the view. -/
def readDynamicStep : NodeReader View Unit := do
  let step ← readInteraction
  modifyNode (·.addStep step)

/-- The forms in which the source of an image is given. -/
def imageForms : List String := ["image", "plantuml", "mermaid", "kroki"]

/-- Reads a statement that only views of one sort take. The form of an image is noted before its
source is read. -/
def readSortStatement : NodeReader View Unit := do
  let token ← current
  match (← currentNode).sort with
  | .dynamic _ _ =>
    if token.kind == .sign .leftBrace then
      let _ ← advance
      readStatements readDynamicStep
    else if startsRelationship (← remaining) then readDynamicStep
    else failUnexpected .view token
  | .image scope content _ =>
    if imageForms.contains token.lexeme then
      let _ ← advance
      modifyNode fun view => { view with sort := .image scope content (some token.lexeme) }
      let source ← expectValue token.line (.sourceOf token.lexeme)
      modifyNode fun view => { view with sort := .image scope (some source) (some token.lexeme) }
    else failUnexpected .view token
  | _ => failUnexpected .view token

/-- Reads a statement in the body of a view. -/
def readViewStatement : NodeReader View Unit := do
  let token ← current
  match token.kind with
  | .keyword .including =>
    let _ ← advance
    let more ← readExpressions token
    modifyNode fun view => { view with details.includes := view.details.includes ++ more }
  | .keyword .excluding =>
    let _ ← advance
    let more ← readExpressions token
    modifyNode fun view => { view with details.excludes := view.details.excludes ++ more }
  | .keyword .autoLayout =>
    let _ ← advance
    let layout ← readAutoLayout token
    modifyNode fun view => { view with details.autoLayout := some layout }
  | .keyword .animation =>
    let _ ← advance
    let animation ← readAnimation token
    modifyNode fun view =>
      { view with details.animations := view.details.animations ++ [animation] }
  | .keyword .title =>
    let _ ← advance
    let title ← expectValue token.line .viewTitle
    modifyNode fun view => { view with details.title := some title }
  | .keyword .description =>
    let _ ← advance
    let description ← expectValue token.line .viewDescription
    modifyNode fun view => { view with details.description := some description }
  | .keyword .properties =>
    let _ ← advance
    let entries ← readKeyValues
    modifyNode fun view =>
      { view with details.properties := mergeInto view.details.properties entries }
  | _ => readSortStatement

/-- Reads a view from its keyword on. -/
def readView (word : ViewWord) : Reader View := do
  let keyword ← advance
  let view ← readViewHeader word keyword.position keyword.line
  expectLineEnd keyword.line
  if ← isSign .leftBrace then
    let _ ← advance
    readBlock readViewStatement view
  else if word == .filtered then return view
  else failExpected (.bodyOfView keyword.lexeme) (← current)

end Blueprint.Grammar
