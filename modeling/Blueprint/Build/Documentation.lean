import Blueprint.Declared.Workspace
import Blueprint.Diagnostic.Reported
import Blueprint.Resolved.Workspace

/-!
# Documentation and decisions of a workspace

Sections stand in the order of their numbers, and sections of one number as they are written. Of
several decisions with one identifier the first is kept.
-/

namespace Blueprint.Build

open Resolved (Section Decision)

/-- The sections as they are written. A section without a number has its place as number. -/
def numberSections : Nat → List Declared.Section → List Section
  | _, [] => []
  | count, declared :: rest =>
    ⟨declared.title, declared.content, declared.format, declared.order.getD (count + 1)⟩ ::
      numberSections (count + 1) rest

/-- The documentation that a block makes. -/
def makeDocumentation (block : Declared.Documentation) : Resolved.Documentation where
  content := block.content
  format := block.format
  sections :=
    (numberSections 0 block.sections).mergeSort fun first second => first.order ≤ second.order

/-- The decision that a declaration makes. -/
def makeDecision (declared : Declared.Decision) : Decision where
  id := declared.id
  title := declared.title
  date := declared.date
  status := declared.status
  content := declared.content
  format := declared.format
  links := declared.links

/-- Adds decisions whose identifiers are not taken. -/
def addDecisions (known : List Decision) : List Declared.Decision → Reported (List Decision)
  | [] => pure known
  | declared :: rest => do
    if declared.id ∈ known.map Decision.id then
      Reported.report (.build (.duplicateDecision declared.id)) declared.position
      addDecisions known rest
    else addDecisions (known ++ [makeDecision declared]) rest

/-- The links of a decision to decisions that are not known. -/
def unknownLinks (ids : List String) (decision : Decision) : List Diagnostic :=
  (decision.links.keys.filter (· ∉ ids)).map fun target =>
    .of (.build (.unknownDecision decision.id target)) none

/-- Reports the links of decisions to decisions that do not exist. -/
def checkLinks (decisions : List Decision) : Reported Unit :=
  ⟨(), decisions.flatMap (unknownLinks (decisions.map Decision.id))⟩

end Blueprint.Build
