import Blueprint.Token.Basic

/-!
# The tokens of a line

Statements are written on lines. The tokens of a line up to a brace form values: tokens that stand
next to each other in the source without a character between them belong to one value, and a string
literal is always a value of its own.
-/

namespace Blueprint.Grammar

/-- Whether a token continues a statement on a line: it stands on the line and is no brace. -/
def onLine (line : Int) (token : Token) : Bool :=
  token.line == line &&
    !(token.kind == .sign .leftBrace || token.kind == .sign .rightBrace ||
      token.kind == .endOfInput)

/-- Whether the second token starts where the first one ends, and neither is a string literal. -/
def joined (first second : Token) : Bool :=
  second.position.offset == first.endOffset && first.kind != .string && second.kind != .string

/-- Cuts tokens wherever two neighbours are not joined. -/
def groupJoined : List Token → List (List Token)
  | [] => []
  | token :: rest =>
    match groupJoined rest with
    | (next :: more) :: groups =>
      if joined token next then (token :: next :: more) :: groups
      else [token] :: (next :: more) :: groups
    | groups => [token] :: groups

/-- The text of a value. -/
def valueText (tokens : List Token) : Text := tokens.flatMap Token.text

/-- The values that the tokens of a line form. -/
def lineValues (line : Int) (tokens : List Token) : List Text :=
  (groupJoined (tokens.takeWhile (onLine line))).map valueText

/-- The values of a line as one, with blanks between them. -/
def spaced (values : List Text) : Text := (Text.ofString " ").intercalate values

/-- What is left after the tokens of a line. -/
def afterLine (line : Int) (tokens : List Token) : List Token :=
  tokens.dropWhile (onLine line)

/-- Whether a token may be an argument that is told by its place. -/
def isPositional (token : Token) : Bool :=
  token.kind == .string || token.kind == .identifier || token.kind == .integer ||
    token.kind == .float

/-- The arguments at the start of a line, up to the given count. -/
def positional (line : Int) (limit : Nat) (tokens : List Token) : List Token :=
  (tokens.take limit).takeWhile fun token => token.line == line && isPositional token

/-- Whether a token may be a part of a dotted reference. -/
def isReferencePart (token : Token) : Bool :=
  token.kind == .identifier || token.kind == .keyword .thisElement

/-- Whether a token is a dot. -/
def isDot (token : Token) : Bool := token.kind == .sign .dot

/-- What is left after the dotted parts at the start. -/
def afterPath : List Token → List Token
  | dot :: part :: rest =>
    if isDot dot && isReferencePart part then afterPath rest else dot :: part :: rest
  | rest => rest

/-- Whether a statement `source -> destination` starts here. -/
def startsRelationship : List Token → Bool
  | [] => false
  | first :: rest =>
    if isReferencePart first || first.kind == .string then
      match afterPath rest with
      | [] => false
      | arrow :: _ => arrow.kind == .sign .arrow && arrow.line == first.line
    else false

/-- What is left after a statement that failed on a line: the tokens from a later line on, or from
the brace that closes the block on. Blocks that open in between are passed over as a whole; the
depth counts those that are open. The end of the input is never passed over. -/
def afterStatement (line : Int) : Nat → List Token → List Token
  | depth, token :: next :: rest =>
    if depth == 0 && (token.kind == .sign .rightBrace || decide (line < token.line)) then
      token :: next :: rest
    else if token.kind == .sign .leftBrace then afterStatement line (depth + 1) (next :: rest)
    else if token.kind == .sign .rightBrace then afterStatement line (depth - 1) (next :: rest)
    else afterStatement line depth (next :: rest)
  | _, rest => rest

end Blueprint.Grammar
