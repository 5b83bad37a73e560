import Blueprint.Grammar.Documentation
import Blueprint.Grammar.Presentation
import Blueprint.Grammar.View
import Blueprint.Token.Stream

/-!
# Reading a workspace

A source has directives, then one workspace, then nothing. Reading always yields a workspace: when
statements fail, or reading stops at the limit of errors, it holds what was read.
-/

namespace Blueprint.Grammar

open Blueprint.Declared

/-- Changes the views of the workspace. -/
def modifyViews (change : Views → Views) : Reader Unit :=
  modifyWorkspace fun workspace => { workspace with views := workspace.views.map change }

/-- Reads a statement in the block `views`. -/
def readViewsStatement : Reader Unit := do
  let token ← current
  match ViewWord.ofKind? token.kind with
  | some word =>
    let view ← readView word
    modifyViews fun block => block.insertView view
  | none =>
    if token.kind == .keyword .configuration || token.kind == .keyword .properties then
      let _ ← advance
      let entries ← readKeyValues
      modifyViews fun block =>
        { block with configuration := mergeInto block.configuration entries }
    else if isDirective token then readDirective
    else if !(← readPresentation) then failUnexpected (.block .views) token

/-- Reads the block `views`; what it declares is added to the views there are. -/
def readViews : Reader Unit := do
  let keyword ← advance
  modifyWorkspace fun workspace =>
    { workspace with
      views := some (workspace.views.getD { position := some keyword.position }) }
  expectOpening
  readBlockOf readViewsStatement

/-- Reads a statement of the workspace. -/
def readWorkspaceStatement : Reader Unit := do
  let token ← current
  match token.kind with
  | .keyword .name =>
    let _ ← advance
    let name ← expectValue token.line .workspaceName
    modifyWorkspace fun workspace => { workspace with name := some name }
  | .keyword .description =>
    let _ ← advance
    let description ← expectValue token.line .workspaceDescription
    modifyWorkspace fun workspace => { workspace with description := some description }
  | .keyword .model => readModel
  | .keyword .views => readViews
  | .keyword .configuration =>
    let _ ← advance
    let entries ← readKeyValues
    modifyWorkspace fun workspace =>
      { workspace with configuration := mergeInto workspace.configuration entries }
  | .keyword .properties =>
    let _ ← advance
    let entries ← readKeyValues
    modifyWorkspace fun workspace =>
      { workspace with properties := mergeInto workspace.properties entries }
  | .keyword .documentation => readDocumentation
  | .keyword .decisions =>
    let _ ← advance
    readDecisions
  | _ =>
    if isDirective token then readDirective
    else if !(← readPresentation) then failUnexpected (.block .workspace) token

/-- Reads the workspace from its keyword on. -/
def readWorkspace : Reader Unit := do
  let keyword ← advance
  let arguments ← takePositional keyword.line 2
  modifyWorkspace fun workspace =>
    { workspace with
      position := some keyword.position
      name := argument arguments 0
      description := argument arguments 1 }
  expectLineEnd keyword.line
  expectOpening
  readBlockOf readWorkspaceStatement

/-- Reads the directives before the workspace, at most the given count. -/
def readDirectives : Nat → Reader Unit
  | 0 => return ()
  | count + 1 => do
    if isDirective (← current) then
      readOrSkip readDirective
      readDirectives count

/-- Reads a whole source. -/
def readSource : Reader Unit := do
  readDirectives (← remaining).length
  let token ← current
  if token.kind == .keyword .workspace then
    readOrSkip readWorkspace
    let token ← current
    if token.kind != .endOfInput then
      report ⟨.unexpected token.found .afterWorkspace, token⟩
  else report ⟨.expected (.oneOf [.keyword .workspace]) token.found, token⟩

/-- What reading a source yields. -/
structure Outcome where
  /-- The declared workspace. -/
  workspace : Workspace
  /-- The tokens of the source. -/
  tokens : List Token
  /-- What is wrong with the source, its characters first. -/
  diagnostics : List Diagnostic

/-- The limit of errors if none is given. -/
def defaultLimit : Int := 100

/-- How reading starts. -/
def Progress.start (tokens : List Token) (diagnostics : List Diagnostic) (limit : Int) :
    Progress :=
  { rest := tokens, workspace := {}, diagnostics, errors := 0, endReported := false, limit }

/-- Reads a workspace from tokens, given what is wrong with the characters. -/
def readTokens (tokens : List Token) (diagnostics : List Diagnostic) (limit : Int) :
    Except Number.Fault Outcome :=
  match readSource.run.run (.start tokens diagnostics limit) with
  | (.error (.fault fault), _) => .error fault
  | (_, progress) => .ok ⟨progress.workspace, tokens, progress.diagnostics⟩

/-- Reads a workspace from a source. -/
def parse (source : String) (limit : Int) : Except Number.Fault Outcome := do
  let stream ← TokenStream.ofString source
  readTokens stream.tokens stream.diagnostics limit

end Blueprint.Grammar
