import Blueprint.Diagnostic.Reported
import Blueprint.Registry.Basic
import Blueprint.Text.Blank

/-!
# Resolving references

A reference is tried as `this` or `parent`, as an identifier, as an alias, as a path of parts with
points between them, and as a name, in this order. What an alias stands for and the first part of a
path are references in turn. The references that are being resolved are kept in a chain, and a
reference that comes back to the chain is circular; so every alias is followed at most once, and
resolving ends.
-/

namespace Blueprint

/-- What resolving a reference yields: an element or problems. -/
abbrev Resolution := Reported (Option Entry)

namespace Resolution

/-- An element without problems. -/
def found (entry : Entry) : Resolution := pure (some entry)

/-- No element; the problem is reported if the reference has a position. -/
def missing (issue : ReferenceIssue) (position : Option Position) : Resolution :=
  ⟨none, position.toList.map fun p => .of (.reference issue) (some p)⟩

/-- No element; the problem is reported in any case. -/
def circular (chain : List String) (position : Option Position) : Resolution :=
  ⟨none, [.of (.reference (.circular chain)) position]⟩

end Resolution

namespace Registry

/-- The parts of a path: what stands between its points. -/
def pathParts (path : String) : List String :=
  (Text.splitOn '.' path.toList).map String.ofList

/-- The part of a path before its first point. -/
def firstPart (path : String) : String :=
  String.ofList (path.toList.takeWhile (· ≠ '.'))

/-- Whether a reference is a path. -/
def isPath (reference : String) : Bool := reference.toList.contains '.'

/-- The first part of a path is no path. -/
theorem isPath_firstPart (path : String) : isPath (firstPart path) = false := by
  simp only [isPath, firstPart, String.toList_ofList]
  rw [Bool.eq_false_iff]
  intro has
  have member := List.contains_iff_mem.mp has
  have fact := List.all_takeWhile (p := fun c => decide (c ≠ '.')) (l := path.toList)
  rw [List.all_eq_true] at fact
  simpa using fact _ member

/-- The aliases that are not in a chain. -/
def freshAliases (registry : Registry) (chain : List String) : List String :=
  registry.aliases.keys.filter fun name => name ∉ chain

/-- Resolves `this` or `parent` against the context. -/
def resolveRelative (registry : Registry) (word : String) (position : Option Position) :
    Resolution :=
  match registry.context.bind registry.get? with
  | none => .missing (.withoutContext word) position
  | some entry =>
    if word = "this" then .found entry
    else
      match entry.parent.bind registry.get? with
      | some parent => .found parent
      | none => .missing (.withoutParent word) position

/-- Resolves a name: the first element registered under it, or any with this name up to the case of
letters. -/
def resolveName (registry : Registry) (name : String) : Option Entry :=
  ((registry.names.get? name).bind registry.get?).or
    (registry.all.find? fun entry => entry.hasNameLike name)

/-- Follows the parts of a path from an element on. -/
def followPath (registry : Registry) (path : String) (position : Option Position) :
    Entry → List String → Resolution
  | entry, [] => .found entry
  | entry, part :: parts =>
    match registry.findChild entry.id part with
    | some child => registry.followPath path position child parts
    | none => .missing (.pathPart part path) position

/-- What follows a reference joins the chain of references, and fewer aliases are left. -/
theorem freshAliases_lt (registry : Registry) {chain : List String} {reference target : String}
    (new : reference ∉ chain) (known : registry.aliases.get? reference = some target) :
    (registry.freshAliases (chain ++ [reference])).length <
      (registry.freshAliases chain).length := by
  have key : reference ∈ registry.aliases.keys := by
    simp only [OrderedMap.get?, Option.map_eq_some_iff] at known
    obtain ⟨entry, find, _⟩ := known
    have same := List.find?_some find
    simp only [decide_eq_true_eq] at same
    exact List.mem_map.mpr ⟨entry, List.mem_of_find?_eq_some find, same⟩
  have split : registry.freshAliases (chain ++ [reference]) =
      (registry.freshAliases chain).filter fun name => name ≠ reference := by
    simp only [freshAliases, List.filter_filter]
    congr 1
    funext name
    simp [not_or, Bool.and_comm]
  rw [split]
  refine List.length_filter_lt_length_iff_exists.mpr ⟨reference, ?_, by simp⟩
  simp [freshAliases, key, new]

/-- A longer chain leaves no more aliases. -/
theorem freshAliases_le (registry : Registry) (chain : List String) (reference : String) :
    (registry.freshAliases (chain ++ [reference])).length ≤
      (registry.freshAliases chain).length := by
  have split : registry.freshAliases (chain ++ [reference]) =
      (registry.freshAliases chain).filter fun name => name ≠ reference := by
    simp only [freshAliases, List.filter_filter]
    congr 1
    funext name
    simp [not_or, Bool.and_comm]
  rw [split]
  exact List.length_filter_le _ _

/-- Resolves a reference that a chain of references leads to. -/
def resolveAfter (registry : Registry) (chain : List String) (reference : String)
    (position : Option Position) (byName : Bool) : Resolution :=
  if _ : reference ∈ chain then .circular (chain ++ [reference]) position
  else if reference = "this" ∨ reference = "parent" then
    registry.resolveRelative reference position
  else
    match registry.get? reference with
    | some entry => .found entry
    | none =>
      match _ : registry.aliases.get? reference with
      | some target =>
        match registry.get? target with
        | some entry => .found entry
        | none => registry.resolveAfter (chain ++ [reference]) target position byName
      | none =>
        if _ : isPath reference = true then
          registry.resolveAfter (chain ++ [reference]) (firstPart reference) none true >>= fun
            | some entry => registry.followPath reference position entry (pathParts reference).tail
            | none => Resolution.missing (.pathPart (firstPart reference) reference) position
        else
          match if byName then registry.resolveName reference else none with
          | some entry => .found entry
          | none => .missing (.unresolved (chain ++ [reference])) position
termination_by 2 * (registry.freshAliases chain).length + (isPath reference).toNat
decreasing_by
  · have less := registry.freshAliases_lt ‹reference ∉ chain›
      ‹registry.aliases.get? reference = some target›
    have := Bool.toNat_le (isPath target)
    omega
  · have less := registry.freshAliases_le chain reference
    rw [isPath_firstPart, ‹isPath reference = true›]
    simp only [Bool.toNat_false, Bool.toNat_true]
    omega

/-- Resolves a reference to an element of a class. -/
def resolve (registry : Registry) (reference : String) (position : Option Position)
    (byName : Bool := true) (wanted : ElementClass := .element) : Resolution :=
  registry.resolveAfter [] reference position byName >>= fun
    | some entry =>
      if entry.kind.isA wanted then Resolution.found entry
      else Resolution.missing (.mismatch wanted entry.kind reference) position
    | none => pure none

end Registry

end Blueprint
