import Blueprint.Grammar.Property

/-!
# Reading styles, themes, branding and terminology

These statements may stand in the workspace and among the views; what they declare belongs to the
workspace.
-/

namespace Blueprint.Grammar

open Blueprint.Declared

/-- Reads a style whose first word is the given token, and adds it to the styles. -/
def readStyleOf (token : Token) (wanted : Wanted) (add : Style → Styles → Styles) :
    Reader Unit := do
  let _ ← advance
  let tag ← expectString token.line wanted
  let entries ← readKeyValues
  modifyWorkspace fun workspace =>
    { workspace with styles := workspace.styles.map (add ⟨some token.position, tag, entries⟩) }

/-- Reads a style from its first word on. -/
def readStyle : Reader Unit := do
  let token ← current
  if token.kind == .identifier && token.lexeme == "element" then
    readStyleOf token .elementTag fun style block =>
      { block with elements := block.elements ++ [style] }
  else if token.kind == .keyword .relationship then
    readStyleOf token .relationshipTag fun style block =>
      { block with relationships := block.relationships ++ [style] }
  else failExpected .style token

/-- Reads the block `styles` after its keyword; its styles are added to those there are. -/
def readStyles (keyword : Token) : Reader Unit := do
  modifyWorkspace fun workspace =>
    { workspace with
      styles := some (workspace.styles.getD { position := some keyword.position }) }
  expectOpening
  readBlockOf readStyle

/-- Reads themes after their keyword, one from each value of the line. -/
def readThemes (keyword : Token) : Reader Unit := do
  match ← takeValues keyword.line with
  | [] => failExpected .themeUrl (← current)
  | urls =>
    let themes := urls.map fun url => (⟨some keyword.position, url.shown⟩ : Theme)
    modifyWorkspace fun workspace => { workspace with themes := workspace.themes ++ themes }

/-- Reads a statement in the block `branding`. -/
def readBrandingStatement : NodeReader Branding Unit := do
  let token ← advance
  if token.lexeme == "logo" then
    let logo ← expectValue token.line .logo
    modifyNode fun branding => { branding with logo := some logo }
  else if token.lexeme == "font" then
    match ← takeValues token.line with
    | [] => failExpected .fontName (← current)
    | name :: more =>
      modifyNode fun branding =>
        { branding with fontName := some name.shown, fontUrl := more.head?.map Text.shown }
  else failUnexpected (.block .branding) token

/-- Reads the block `branding` after its keyword; it takes the place of an earlier one. -/
def readBranding (keyword : Token) : Reader Unit := do
  expectOpening
  let branding ← readBlock readBrandingStatement { position := some keyword.position }
  modifyWorkspace fun workspace => { workspace with branding := some branding }

/-- Reads the block `terminology` after its keyword; it takes the place of an earlier one. -/
def readTerminology (keyword : Token) : Reader Unit := do
  let terms ← readKeyValues
  modifyWorkspace fun workspace =>
    { workspace with terminology := some ⟨some keyword.position, terms⟩ }

/-- Reads a statement about the presentation, and says whether there was one. -/
def readPresentation : Reader Bool := do
  let token ← current
  match token.kind with
  | .keyword .styles =>
    let _ ← advance
    readStyles token
    return true
  | .keyword .themes =>
    let _ ← advance
    readThemes token
    return true
  | .keyword .branding =>
    let _ ← advance
    readBranding token
    return true
  | .keyword .terminology =>
    let _ ← advance
    readTerminology token
    return true
  | .identifier =>
    if token.lexeme == "theme" then
      let _ ← advance
      readThemes token
      return true
    else return false
  | _ => return false

end Blueprint.Grammar
