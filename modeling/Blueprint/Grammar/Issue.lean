import Blueprint.Text.Quoted
import Blueprint.Token.Basic

/-!
# Problems in the order of tokens

A statement fails at a token: something else was wanted there, or nothing at all. The message says
what was wanted and what was found, and never where, so it depends on the tokens alone.
-/

namespace Blueprint

open Blueprint.Text

/-- What stands at the place of a problem. -/
inductive Found where
  /-- The end of the input. -/
  | endOfInput
  /-- A string literal, as it is written. -/
  | string (lexeme : String)
  /-- Any other token, as it is written. -/
  | token (lexeme : String)
  deriving DecidableEq, Repr

/-- What a token is in a message. -/
def Token.found (token : Token) : Found :=
  match token.kind with
  | .endOfInput => .endOfInput
  | .string => .string token.lexeme
  | _ => .token token.lexeme

/-- The words for what was found. -/
def Found.describe : Found → String
  | .endOfInput => "end of input"
  | .string lexeme => "string " ++ lexeme
  | .token lexeme => Quoted.ofString lexeme

/-- The words for a kind of token that is wanted. -/
def Kind.wanted : Kind → String
  | .endOfInput => "eof"
  | .identifier => "identifier"
  | .string => "string"
  | .integer => "integer"
  | .float => "float"
  | .boolean => "boolean"
  | .sign s => Quoted.ofString s.spelling
  | .keyword word => Quoted.ofString word.spelling
  | .directive d => Quoted.ofString ("!" ++ d.spelling)

/-- What a statement wants to find. -/
inductive Wanted where
  /-- A token of one of the kinds. -/
  | oneOf (kinds : List Kind)
  /-- The name of the workspace. -/
  | workspaceName
  /-- The description of the workspace. -/
  | workspaceDescription
  /-- The value of a property. -/
  | valueFor (property : String)
  /-- Tags. -/
  | tags
  /-- A reference to an element. -/
  | reference
  /-- The next part of a dotted reference. -/
  | pathPart
  /-- The name of an element, after its keyword. -/
  | nameOf (keyword : String)
  /-- The body of an element, after its keyword. -/
  | bodyOf (keyword : String)
  /-- The body of a view, after its keyword. -/
  | bodyOfView (keyword : String)
  /-- The environment of a deployment view. -/
  | environment
  /-- The key of the view that is filtered. -/
  | baseViewKey
  /-- The tags of a filter. -/
  | filterTags
  /-- The title of a view. -/
  | viewTitle
  /-- The description of a view. -/
  | viewDescription
  /-- The source of an image. -/
  | sourceOf (format : String)
  /-- A step of a dynamic view. -/
  | interaction
  /-- An expression, after its keyword. -/
  | expressionAfter (keyword : String)
  /-- The address of a theme. -/
  | themeUrl
  /-- A style for elements or for relationships. -/
  | style
  /-- The tag of a style for elements. -/
  | elementTag
  /-- The tag of a style for relationships. -/
  | relationshipTag
  /-- A logo. -/
  | logo
  /-- The name of a font. -/
  | fontName
  /-- The title of a section. -/
  | sectionTitle
  /-- The identifier of a decision. -/
  | decisionId
  deriving DecidableEq, Repr

/-- The words for what is wanted. -/
def Wanted.describe : Wanted → String
  | .oneOf kinds => String.intercalate ", " (kinds.map Kind.wanted)
  | .workspaceName => "workspace name"
  | .workspaceDescription => "workspace description"
  | .valueFor property => "value for '" ++ property ++ "'"
  | .tags => "tags"
  | .reference => "element reference"
  | .pathPart => "identifier after '.'"
  | .nameOf keyword => keyword ++ " name"
  | .bodyOf keyword => "'\x7b' after " ++ keyword
  | .bodyOfView keyword => "'\x7b' after " ++ keyword ++ " view"
  | .environment => "deployment environment"
  | .baseViewKey => "base view key"
  | .filterTags => "filter tags"
  | .viewTitle => "view title"
  | .viewDescription => "view description"
  | .sourceOf format => format ++ " source"
  | .interaction => "interaction 'source -> destination'"
  | .expressionAfter keyword => "expression after '" ++ keyword ++ "'"
  | .themeUrl => "theme URL"
  | .style => "'element' or 'relationship' style"
  | .elementTag => "element tag"
  | .relationshipTag => "relationship tag"
  | .logo => "logo"
  | .fontName => "font name"
  | .sectionTitle => "section title"
  | .decisionId => "decision id"

/-- Where a token is not expected. -/
inductive Place where
  /-- At the end of a statement. -/
  | line
  /-- In a block that a reserved word opens. -/
  | block (word : Keyword)
  /-- In the body of a view. -/
  | view
  /-- In an expression. -/
  | expression
  /-- After the workspace. -/
  | afterWorkspace
  deriving DecidableEq, Repr

/-- The words for a place, with a blank before them. -/
def Place.describe : Place → String
  | .line => ""
  | .block word => " in " ++ word.spelling
  | .view => " in view"
  | .expression => " in expression"
  | .afterWorkspace => " after workspace definition"

/-- What can be wrong with the order of tokens. -/
inductive GrammarIssue where
  /-- Something else was wanted. -/
  | expected (wanted : Wanted) (found : Found)
  /-- Nothing of this sort is expected. -/
  | unexpected (found : Found) (place : Place)
  /-- A block reaches the end of the input. -/
  | unclosedBlock
  /-- An element stands in a body that does not take it. -/
  | notAllowed (lexeme : String) (owner : Keyword)
  /-- A directive has no value. -/
  | directiveWithoutValue (lexeme : String)
  /-- The way in which identifiers are formed is not known. -/
  | identifierMode (value : String)
  /-- A relationship without a source stands outside of elements. -/
  | withoutSource
  /-- An enterprise is given an identifier. -/
  | enterpriseIdentifier
  /-- The order of a section is no number. -/
  | sectionOrder (value : String)
  deriving DecidableEq, Repr

namespace GrammarIssue

/-- The wording of a problem. -/
def message : GrammarIssue → String
  | .expected wanted found => "Expected " ++ wanted.describe ++ ", got " ++ found.describe
  | .unexpected found place => "Unexpected " ++ found.describe ++ place.describe
  | .unclosedBlock => "Expected '\x7d' before end of input"
  | .notAllowed lexeme owner =>
    "'" ++ lexeme ++ "' is not allowed inside " ++ owner.spelling
  | .directiveWithoutValue lexeme => "Expected value after " ++ lexeme
  | .identifierMode value =>
    "Invalid identifier mode " ++ Quoted.ofString value ++ "; expected 'flat' or 'hierarchical'"
  | .withoutSource => "Relationship without a source is only allowed inside an element"
  | .enterpriseIdentifier => "An enterprise cannot be assigned an identifier"
  | .sectionOrder value => "Expected section order number, got " ++ Quoted.ofString value

end GrammarIssue

/-- A statement fails: what is wrong, and the token where it is noticed. -/
structure GrammarError where
  /-- What is wrong. -/
  issue : GrammarIssue
  /-- Where it is noticed. -/
  token : Token
  deriving DecidableEq, Repr

namespace GrammarError

/-- The text of an error with its place. -/
def describe (position : Position) (message : String) : String :=
  position.describe ++ ": " ++ message

end GrammarError

end Blueprint
