import Blueprint.Build.Draft

/-!
# Relationships of a workspace

Declared relationships are resolved with the element around them as context, and numbered where they
are given no identifier. A relationship between two elements implies relationships between the
elements around them, unless one of these stands inside the other or they have a relationship
already.
-/

namespace Blueprint.Build

open Resolved (Model Relationship)

/-- The lowest number above the count of relationships that is not taken as an identifier. -/
def nextNumber (taken : List String) : Nat :=
  let free := (List.range (taken.length + 1)).find? fun step =>
    toString (taken.length + 1 + step) ∉ taken
  taken.length + 1 + free.getD 0

/-- The identifier of a relationship that is given none. -/
def nextRelationshipId (relationships : List Relationship) : String :=
  toString (nextNumber (relationships.map Relationship.id))

/-- The relationship that a declaration makes. -/
def makeRelationship (declared : Declared.Relationship) (source destination : Entry)
    (id : String) : Relationship where
  id := id
  source := source.id
  destination := destination.id
  description := declared.description
  technology := declared.technology
  tags := declared.tags
  properties := declared.properties
  url := declared.url

/-- Resolves a relationship, given those before it. -/
def resolveRelationship (registry : Registry) (known : List Relationship)
    (waiting : WaitingRelationship) : Reported (Option Relationship) := do
  let declared := waiting.declared
  let registry := registry.withContext waiting.context
  let source? ← registry.resolve declared.source declared.position
  let destination? ← registry.resolve declared.destination declared.position
  match source?, destination? with
  | some source, some destination =>
    match given? declared.identifier with
    | some identifier =>
      if identifier ∈ known.map Relationship.id then do
        Reported.report (.build (.duplicateRelationship identifier)) declared.position
        return none
      else return some (makeRelationship declared source destination identifier)
    | none =>
      return some (makeRelationship declared source destination (nextRelationshipId known))
  | _, _ => return none

/-- Resolves relationships one after the other. -/
def resolveRelationships (registry : Registry) (known : List Relationship) :
    List WaitingRelationship → Reported (List Relationship)
  | [] => pure known
  | waiting :: rest => do
    let next ← resolveRelationship registry known waiting
    resolveRelationships registry (known ++ next.toList) rest

/-! ## Implied relationships -/

/-- An element with the elements around it, the nearest first. -/
def withAncestors (model : Model) (id : String) : List String := id :: model.ancestorsOf id

/-- The pairs of elements that a relationship between two elements relates: neither stands inside
the other. -/
def impliedPairs (model : Model) (source destination : String) : List (String × String) :=
  let destinations := (withAncestors model destination).map fun id => (id, model.ancestorsOf id)
  (withAncestors model source).flatMap fun outer =>
    let above := model.ancestorsOf outer
    destinations.filterMap fun (inner, around) =>
      if outer = inner || above.contains inner || around.contains outer then none
      else some (outer, inner)

/-- The pairs that are walked through are of elements each of which is an end of the relationship or
around that end, and of which neither is the other or around the other. -/
theorem mem_impliedPairs {model : Model} {source destination : String} {ends : String × String} :
    ends ∈ impliedPairs model source destination ↔
      ends.1 ∈ withAncestors model source ∧ ends.2 ∈ withAncestors model destination ∧
        ends.1 ≠ ends.2 ∧ ends.2 ∉ model.ancestorsOf ends.1 ∧
          ends.1 ∉ model.ancestorsOf ends.2 := by
  unfold impliedPairs
  constructor
  · intro h
    obtain ⟨outer, ho, h⟩ := List.mem_flatMap.mp h
    obtain ⟨⟨inner, around⟩, hm, h⟩ := List.mem_filterMap.mp h
    obtain ⟨_, hi, he⟩ := List.mem_map.mp hm
    cases he
    dsimp only at h
    split at h
    · cases h
    · rename_i hn
      cases h
      simp only [Bool.or_eq_true, decide_eq_true_eq, List.contains_iff_mem, not_or] at hn
      exact ⟨ho, hi, hn.1.1, hn.1.2, hn.2⟩
  · intro ⟨ho, hi, hne, hd, hs⟩
    refine List.mem_flatMap.mpr ⟨ends.1, ho, ?_⟩
    refine List.mem_filterMap.mpr ⟨_, List.mem_map_of_mem hi, ?_⟩
    simp [hne, hd, hs]

/-- Adds an implied relationship unless there is a relationship between the two elements. -/
def addImplied (declared : Relationship) (model : Model) (ends : String × String) : Model :=
  if model.hasRelationship ends.1 ends.2 then model
  else
    { model with
      relationships := model.relationships ++
        [{ id := nextRelationshipId model.relationships, source := ends.1, destination := ends.2
           description := declared.description, technology := declared.technology
           implied := true }] }

/-- Adds the relationships that the relationships of a model imply. -/
def addAllImplied (model : Model) : Model :=
  model.relationships.foldl (fun extended declared =>
    (impliedPairs model declared.source declared.destination).foldl (addImplied declared)
      extended) model

end Blueprint.Build
