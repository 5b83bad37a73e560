/-!
# Kinds of tokens

A token is an identifier, a literal, a sign, a reserved word, a directive, or the end of the input.
Every reserved word and directive has one spelling, from which its name in listings follows; one
reserved word has a second spelling.
-/

namespace Blueprint

/-- The reserved words. -/
inductive Keyword where
  -- Blocks of a workspace.
  | workspace | model | views | styles | themes | branding | configuration | terminology
  -- Elements of a model.
  | person | softwareSystem | container | component | deploymentEnvironment | deploymentNode
  | infrastructureNode | group | enterprise | containerInstance | softwareSystemInstance
  | instances
  -- Relationships.
  | relationship | ref | thisElement
  -- Properties of elements.
  | tags | description | technology | url | properties | perspectives | location | name
  | elements
  -- Kinds of views.
  | systemLandscape | systemContext | dynamic | deployment | filtered | custom | image
  -- Properties of views.
  | title | autoLayout | animation | including | excluding | key | order | step
  -- Layout.
  | rankDirection | rankSeparation | nodeSeparation
  -- Styling.
  | shape | icon | color | background | stroke | fontSize | border | opacity | width | height
  | thickness | routing | position
  -- Shapes.
  | boxShape | circleShape | cylinderShape | ellipseShape | hexagonShape | folderShape
  | personShape | pipeShape | robotShape | roundedBoxShape | webBrowserShape
  -- Documentation.
  | documentation | decisions | decision | sectionHeading | content | format | status | date
  deriving DecidableEq, Repr

namespace Keyword

/-- All reserved words. -/
def all : List Keyword := [
  .workspace, .model, .views, .styles, .themes, .branding, .configuration, .terminology, .person,
  .softwareSystem, .container, .component, .deploymentEnvironment, .deploymentNode,
  .infrastructureNode, .group, .enterprise, .containerInstance, .softwareSystemInstance,
  .instances, .relationship, .ref, .thisElement, .tags, .description, .technology, .url,
  .properties, .perspectives, .location, .name, .elements, .systemLandscape, .systemContext,
  .dynamic, .deployment, .filtered, .custom, .image, .title, .autoLayout, .animation, .including,
  .excluding, .key, .order, .step, .rankDirection, .rankSeparation, .nodeSeparation, .shape,
  .icon, .color, .background, .stroke, .fontSize, .border, .opacity, .width, .height, .thickness,
  .routing, .position, .boxShape, .circleShape, .cylinderShape, .ellipseShape, .hexagonShape,
  .folderShape, .personShape, .pipeShape, .robotShape, .roundedBoxShape, .webBrowserShape,
  .documentation, .decisions, .decision, .sectionHeading, .content, .format, .status, .date]

/-- How a reserved word is written. -/
def spelling : Keyword → String
  | .workspace => "workspace"
  | .model => "model"
  | .views => "views"
  | .styles => "styles"
  | .themes => "themes"
  | .branding => "branding"
  | .configuration => "configuration"
  | .terminology => "terminology"
  | .person => "person"
  | .softwareSystem => "softwareSystem"
  | .container => "container"
  | .component => "component"
  | .deploymentEnvironment => "deploymentEnvironment"
  | .deploymentNode => "deploymentNode"
  | .infrastructureNode => "infrastructureNode"
  | .group => "group"
  | .enterprise => "enterprise"
  | .containerInstance => "containerInstance"
  | .softwareSystemInstance => "softwareSystemInstance"
  | .instances => "instances"
  | .relationship => "relationship"
  | .ref => "ref"
  | .thisElement => "this"
  | .tags => "tags"
  | .description => "description"
  | .technology => "technology"
  | .url => "url"
  | .properties => "properties"
  | .perspectives => "perspectives"
  | .location => "location"
  | .name => "name"
  | .elements => "elements"
  | .systemLandscape => "systemLandscape"
  | .systemContext => "systemContext"
  | .dynamic => "dynamic"
  | .deployment => "deployment"
  | .filtered => "filtered"
  | .custom => "custom"
  | .image => "image"
  | .title => "title"
  | .autoLayout => "autoLayout"
  | .animation => "animation"
  | .including => "include"
  | .excluding => "exclude"
  | .key => "key"
  | .order => "order"
  | .step => "step"
  | .rankDirection => "rankDirection"
  | .rankSeparation => "rankSeparation"
  | .nodeSeparation => "nodeSeparation"
  | .shape => "shape"
  | .icon => "icon"
  | .color => "color"
  | .background => "background"
  | .stroke => "stroke"
  | .fontSize => "fontSize"
  | .border => "border"
  | .opacity => "opacity"
  | .width => "width"
  | .height => "height"
  | .thickness => "thickness"
  | .routing => "routing"
  | .position => "position"
  | .boxShape => "Box"
  | .circleShape => "Circle"
  | .cylinderShape => "Cylinder"
  | .ellipseShape => "Ellipse"
  | .hexagonShape => "Hexagon"
  | .folderShape => "Folder"
  | .personShape => "Person"
  | .pipeShape => "Pipe"
  | .robotShape => "Robot"
  | .roundedBoxShape => "RoundedBox"
  | .webBrowserShape => "WebBrowser"
  | .documentation => "documentation"
  | .decisions => "decisions"
  | .decision => "decision"
  | .sectionHeading => "section"
  | .content => "content"
  | .format => "format"
  | .status => "status"
  | .date => "date"

/-- The reserved word with a spelling; `autolayout` is a second spelling of `autoLayout`. -/
def find? (text : String) : Option Keyword :=
  if text = "autolayout" then some .autoLayout
  else all.find? fun word => word.spelling == text

/-- Whether a word names a shape; those words start with a capital letter. -/
def isShape (word : Keyword) : Bool :=
  (word.spelling.toList.head?.map Char.isUpper).getD false

end Keyword

/-- The directives that are known by name. -/
inductive Directive where
  | identifiers | includeFile | docs | adrs | constant | impliedRelationships
  deriving DecidableEq, Repr

namespace Directive

/-- All directives. -/
def all : List Directive :=
  [.identifiers, .includeFile, .docs, .adrs, .constant, .impliedRelationships]

/-- How a directive is written, without the exclamation mark. -/
def spelling : Directive → String
  | .identifiers => "identifiers"
  | .includeFile => "include"
  | .docs => "docs"
  | .adrs => "adrs"
  | .constant => "constant"
  | .impliedRelationships => "impliedRelationships"

/-- The directive with a spelling. -/
def find? (text : String) : Option Directive :=
  all.find? fun directive => directive.spelling == text

end Directive

/-- The signs. -/
inductive Sign where
  | leftBrace | rightBrace | leftParenthesis | rightParenthesis | arrow | equals | comma | colon
  | dot | semicolon | plus | minus | star | slash | hash | at | bang | pipe
  deriving DecidableEq, Repr

namespace Sign

/-- How a sign is written. -/
def spelling : Sign → String
  | .leftBrace => "\x7b"
  | .rightBrace => "\x7d"
  | .leftParenthesis => "("
  | .rightParenthesis => ")"
  | .arrow => "->"
  | .equals => "="
  | .comma => ","
  | .colon => ":"
  | .dot => "."
  | .semicolon => ";"
  | .plus => "+"
  | .minus => "-"
  | .star => "*"
  | .slash => "/"
  | .hash => "#"
  | .at => "@"
  | .bang => "!"
  | .pipe => "|"

/-- The name of a sign in listings. -/
def label : Sign → String
  | .leftBrace => "LBRACE"
  | .rightBrace => "RBRACE"
  | .leftParenthesis => "LPAREN"
  | .rightParenthesis => "RPAREN"
  | .arrow => "ARROW"
  | .equals => "EQUALS"
  | .comma => "COMMA"
  | .colon => "COLON"
  | .dot => "DOT"
  | .semicolon => "SEMICOLON"
  | .plus => "PLUS"
  | .minus => "MINUS"
  | .star => "STAR"
  | .slash => "SLASH"
  | .hash => "HASH"
  | .at => "AT"
  | .bang => "BANG"
  | .pipe => "PIPE"

/-- The signs of one character that no longer sign starts with. -/
def ofChar? : Char → Option Sign
  | '{' => some .leftBrace
  | '}' => some .rightBrace
  | '(' => some .leftParenthesis
  | ')' => some .rightParenthesis
  | ',' => some .comma
  | '.' => some .dot
  | ';' => some .semicolon
  | ':' => some .colon
  | '+' => some .plus
  | '*' => some .star
  | '|' => some .pipe
  | '#' => some .hash
  | '@' => some .at
  | '=' => some .equals
  | _ => none

end Sign

/-- What a token is. -/
inductive Kind where
  /-- The end of the input, after the last character. -/
  | endOfInput
  /-- A word that is not reserved, or an unknown directive with its exclamation mark. -/
  | identifier
  /-- A string literal. -/
  | string
  /-- A whole number. -/
  | integer
  /-- A number with a decimal point. -/
  | float
  /-- One of the words `true` and `false`. -/
  | boolean
  /-- A sign. -/
  | sign (s : Sign)
  /-- A reserved word. -/
  | keyword (word : Keyword)
  /-- A directive that is known by name. -/
  | directive (d : Directive)
  deriving DecidableEq, Repr

namespace Kind

/-- A spelling in capitals, with an underscore before each capital letter inside it. -/
def capitals (spelling : String) : String :=
  match spelling.toList with
  | [] => ""
  | first :: rest =>
    String.ofList (first.toUpper :: rest.flatMap fun c =>
      if c.isUpper then ['_', c] else [c.toUpper])

/-- The name of a kind in listings. -/
def label : Kind → String
  | .endOfInput => "EOF"
  | .identifier => "IDENTIFIER"
  | .string => "STRING"
  | .integer => "INTEGER"
  | .float => "FLOAT"
  | .boolean => "BOOLEAN"
  | .sign s => s.label
  | .keyword word =>
    if word.isShape then capitals word.spelling ++ "_SHAPE" else capitals word.spelling
  | .directive .identifiers => "IDENTIFIERS"
  | .directive d => capitals d.spelling ++ "_DIRECTIVE"

end Kind

end Blueprint
