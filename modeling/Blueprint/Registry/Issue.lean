import Blueprint.Registry.ElementClass

/-!
# Problems with references
-/

namespace Blueprint

/-- What can be wrong with a reference. -/
inductive ReferenceIssue where
  /-- Following aliases comes back to a reference that is being followed. -/
  | circular (chain : List String)
  /-- The element is of another class than is wanted. -/
  | mismatch (wanted found : ElementClass) (reference : String)
  /-- No element fits; the chain holds the aliases that were followed. -/
  | unresolved (chain : List String)
  /-- A relative reference stands outside of elements. -/
  | withoutContext (word : String)
  /-- The enclosing element has no parent. -/
  | withoutParent (word : String)
  /-- A part of a dotted path fits no element. -/
  | pathPart (part path : String)
  deriving DecidableEq, Repr

namespace ReferenceIssue

/-- The references of a chain with arrows between them. -/
def showChain (chain : List String) : String :=
  String.intercalate " → " chain

/-- The wording of a problem. -/
def message : ReferenceIssue → String
  | .circular chain => "Circular reference detected: " ++ showChain chain
  | .mismatch wanted found reference =>
    "Type mismatch: expected " ++ wanted.label ++ " but found " ++ found.label ++
      " for reference: " ++ reference
  | .unresolved chain => "Could not resolve reference: " ++ showChain chain
  | .withoutContext word => "Cannot resolve \"" ++ word ++ "\" reference: no current element"
  | .withoutParent word =>
    "Cannot resolve \"" ++ word ++ "\" reference: current element has no parent"
  | .pathPart part path =>
    "Could not resolve path segment \"" ++ part ++ "\" in path \"" ++ path ++ "\""

end ReferenceIssue

end Blueprint
