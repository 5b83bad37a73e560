import Mathlib.Logic.Relation
import Blueprint.Build.Workspace
import Blueprint.Proofs.Build.Related
import Blueprint.Proofs.Build.Viewed

/-!
# Referential integrity

Whatever is declared, the workspace that is built refers to nothing that is not there: parents,
ends of relationships, targets of instances and everything in views are elements, and identifiers
and keys are distinct. What is declared badly is reported and left out, and nothing refers to what
is left out.
-/

namespace Blueprint.Resolved

/-! ## Elements around elements -/

/-- One element is declared in the body of another. -/
def StandsIn (elements : List Element) (inner outer : String) : Prop :=
  ∃ element ∈ elements, element.id = inner ∧ element.parent = some outer

/-- Where parents come first, an element comes after the one that it stands in. -/
theorem StandsIn.idxOf_lt {elements : List Element} (hn : (elements.map Element.id).Nodup)
    (hp : ParentsFirst elements) {inner outer : String} (h : StandsIn elements inner outer) :
    (elements.map Element.id).idxOf outer < (elements.map Element.id).idxOf inner := by
  obtain ⟨element, hm, rfl, hu⟩ := h
  obtain ⟨before, after, rfl⟩ := List.append_of_mem hm
  have hb := hp before element after rfl outer hu
  rw [List.map_append, List.map_cons] at hn ⊢
  have hi : element.id ∉ before.map Element.id := fun hc =>
    (List.nodup_append.mp hn).2.2 _ hc _ List.mem_cons_self rfl
  rw [List.idxOf_append_of_mem hb, List.idxOf_append_of_notMem hi, List.idxOf_cons_self]
  have := List.idxOf_lt_length_of_mem hb
  omega

/-- Where parents come first, no element stands in itself, however far in. -/
theorem ParentsFirst.acyclic {elements : List Element}
    (hn : (elements.map Element.id).Nodup) (hp : ParentsFirst elements) (id : String) :
    ¬Relation.TransGen (StandsIn elements) id id := by
  intro h
  have hlt : ∀ outer, Relation.TransGen (StandsIn elements) id outer →
      (elements.map Element.id).idxOf outer < (elements.map Element.id).idxOf id := by
    intro outer hr
    induction hr with
    | single hs => exact hs.idxOf_lt hn hp
    | tail _ hs ih => exact Nat.lt_trans (hs.idxOf_lt hn hp) ih
  exact Nat.lt_irrefl _ (hlt id h)

/-- Everything that a workspace refers to is there, and nothing in it is there twice. -/
structure Workspace.Coherent (workspace : Workspace) : Prop where
  /-- No two elements have one identifier. -/
  elements : (workspace.model.elements.map Element.id).Nodup
  /-- The element that an element stands in comes earlier. -/
  parents : ParentsFirst workspace.model.elements
  /-- No element stands in itself, however far in. -/
  acyclic : ∀ id, ¬Relation.TransGen (StandsIn workspace.model.elements) id id
  /-- Relationships, declared or implied, are between elements and have distinct identifiers. -/
  linked : workspace.model.Linked
  /-- Instances are instances of elements of their class. -/
  targets : ∀ element ∈ workspace.model.elements, element.HasTarget workspace.model.elements
  /-- No two views have one key. -/
  keys : (workspace.views.map View.key).Nodup
  /-- Views refer to elements. -/
  views : ∀ view ∈ workspace.views, view.Coherent workspace.model.elements
  /-- No two decisions have one identifier. -/
  decisions : (workspace.decisions.map Decision.id).Nodup

end Blueprint.Resolved

namespace Blueprint.Build

open Resolved (Decision Model)

/-- All elements that are registered form a sound draft. -/
theorem registerAll_sound (declared : Declared.Workspace) :
    (registerAll declared).value.Sound := by
  have hs : (registerDeclared (isHierarchical declared) declared.model).value.Sound := by
    unfold registerDeclared
    split
    · exact registerModel_sound _ Draft.sound_empty _
    · exact Draft.sound_empty
  unfold registerAll
  rw [Reported.bind_value]
  exact registerInstances_sound hs hs.hosts

/-- The model over a sound draft has its elements and is linked. -/
theorem buildModel_linked (declared : Declared.Workspace) {draft : Draft} (h : draft.Sound)
    (implied : Bool) :
    (buildModel declared draft implied).value.elements = draft.elements ∧
      (buildModel declared draft implied).value.Linked := by
  unfold buildModel
  rw [Reported.bind_value, Reported.pure_value]
  have hn : Model.Linked { elements := draft.elements } := ⟨by simp, by simp⟩
  have hl := resolveRelationships_linked h hn draft.relationships
  split
  · exact addAllImplied_linked ⟨hl.ends, hl.distinct⟩ h.parents
  · exact ⟨rfl, hl.ends, hl.distinct⟩

/-- Decisions that are added keep the identifiers distinct. -/
theorem addDecisions_nodup {known : List Decision} {declared : List Declared.Decision}
    (h : (known.map Decision.id).Nodup) :
    ((addDecisions known declared).value.map Decision.id).Nodup := by
  induction declared generalizing known with
  | nil => exact h
  | cons first declared ih =>
    rw [addDecisions]
    split
    · exact ih h
    · rename_i hn
      refine ih ?_
      rw [List.map_append]
      refine List.nodup_append.mpr ⟨h, List.pairwise_singleton _ _, ?_⟩
      intro id hm other ho he
      rw [List.map_singleton, List.mem_singleton] at ho
      rw [he, ho] at hm
      exact hn hm

/-- The views of a block that may be missing are coherent over a sound draft. -/
theorem bindDeclared_coherent {draft : Draft} (h : draft.Sound)
    (block : Option Declared.Views) :
    (∀ view ∈ (bindDeclared draft.registry block).value, view.Coherent draft.elements) ∧
      ((bindDeclared draft.registry block).value.map Resolved.View.key).Nodup := by
  unfold bindDeclared
  split
  · unfold bindBlock
    exact bindViews_coherent h (by simp) (by simp) _
  · exact ⟨by simp, by simp⟩

/-- Every workspace that is built is coherent, whatever is declared. -/
theorem build_coherent (declared : Declared.Workspace) (implied : Bool) :
    (build declared implied).value.Coherent := by
  have hs := registerAll_sound declared
  obtain ⟨he, hl⟩ := buildModel_linked declared hs implied
  obtain ⟨hv, hk⟩ := bindDeclared_coherent hs declared.views
  unfold build buildWith
  simp only [Reported.bind_value, Reported.pure_value]
  refine ⟨?_, ?_, ?_, hl, ?_, hk, ?_, addDecisions_nodup (by simp)⟩
  · rw [he]
    exact hs.ids_nodup
  · rw [he]
    exact hs.parents
  · rw [he]
    exact hs.parents.acyclic hs.ids_nodup
  · rw [he]
    exact hs.targets
  · rw [he]
    exact hv

end Blueprint.Build
