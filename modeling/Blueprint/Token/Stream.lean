import Blueprint.Diagnostic.Basic
import Blueprint.Token.Segment

/-!
# The tokens of a source text

The tokens are those of the segments of the source, each with the place where its segment starts,
and the end of the input after them. What is wrong with a segment is reported at its own place. A
whole number with too many digits is no token, and the source then has none.
-/

namespace Blueprint

/-- The tokens of a source and what is wrong with its characters. -/
structure TokenStream where
  /-- The tokens, the end of the input last. -/
  tokens : List Token
  /-- What is wrong with the characters, in the order in which it is noticed. -/
  diagnostics : List Diagnostic
  deriving DecidableEq, Repr

namespace TokenStream

/-- The diagnostics of a segment that starts at a place. -/
def diagnosticsAt (position : Position) (segment : Segment) : List Diagnostic :=
  segment.remarks.map fun remark =>
    .of (.lexical remark.issue) (some (position.after (segment.text.take remark.distance)))

/-- The tokens of segments with their places. -/
def tokensOf : List (Position × Segment) → Except Number.Fault (List Token)
  | [] => .ok []
  | (position, segment) :: rest => do
    let token ← segment.tokenAt position
    let more ← tokensOf rest
    return token.toList ++ more

/-- The tokens of a source text. -/
def ofChars (source : List Char) : Except Number.Fault TokenStream := do
  let placed := Segment.placed Position.start (Segment.ofText source)
  let tokens ← tokensOf placed
  return { tokens := tokens ++ [Token.finish (Position.start.after source)]
           diagnostics := placed.flatMap fun (position, segment) =>
             diagnosticsAt position segment }

/-- The tokens of a source text. -/
def ofString (source : String) : Except Number.Fault TokenStream := ofChars source.toList

end TokenStream

end Blueprint
