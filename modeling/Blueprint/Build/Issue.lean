/-!
# Problems that the declarations of a workspace have with each other
-/

namespace Blueprint

/-- What can be wrong with declarations that are well-formed one by one. -/
inductive BuildIssue where
  /-- The directive names other files, which are not read. -/
  | unsupportedDirective (name value : String)
  /-- Two elements have one identifier. -/
  | duplicateElement (id : String)
  /-- Two relationships have one identifier. -/
  | duplicateRelationship (id : String)
  /-- Two views have one key. -/
  | duplicateView (key : String)
  /-- A filtered view is based on a view that does not exist. -/
  | unknownBaseView (key : String)
  /-- A dynamic view is about an element of a class that has no such views. -/
  | dynamicScope (reference : String)
  /-- Two decisions have one identifier. -/
  | duplicateDecision (id : String)
  /-- A decision names a decision that does not exist. -/
  | unknownDecision (id target : String)
  deriving DecidableEq, Repr

namespace BuildIssue

/-- The wording of a problem. -/
def message : BuildIssue → String
  | .unsupportedDirective name value =>
    "Directive !" ++ name ++ " is not supported; '" ++ value ++ "' was not loaded"
  | .duplicateElement id => "Duplicate element identifier: " ++ id
  | .duplicateRelationship id => "Duplicate relationship identifier: " ++ id
  | .duplicateView key => "Duplicate view key: " ++ key
  | .unknownBaseView key => "Filtered view refers to unknown view key: " ++ key
  | .dynamicScope reference =>
    "Dynamic view scope must be a software system or container: " ++ reference
  | .duplicateDecision id => "Duplicate decision id: " ++ id
  | .unknownDecision id target => "Decision " ++ id ++ " links to unknown decision " ++ target

/-- What is left out without harm to the rest is only a warning. -/
def isWarning : BuildIssue → Bool
  | .unsupportedDirective _ _ => true
  | .unknownDecision _ _ => true
  | _ => false

end BuildIssue

end Blueprint
