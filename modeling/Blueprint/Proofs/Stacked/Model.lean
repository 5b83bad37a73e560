import Blueprint.Proofs.Declared.Unplaced
import Mathlib.Data.List.Perm.Subperm

/-!
# Models of which one is declared below the other

A model is put together of the statements of two bodies, one below the other. It has the members and
relationships that either body declares. Its enterprise is that of the lower body if there is one,
and only otherwise that of the upper body: so what is declared in the enterprise of the upper body
is lost exactly if the lower body has an enterprise of its own.
-/

namespace Blueprint.Declared

open Grammar

variable {first second whole : Model}

/-! ## Parts of models -/

/-- What a model declares: members and relationships, of itself and of its enterprise. -/
inductive Part where
  /-- A member of the model. -/
  | member (element : Element)
  /-- A relationship of the model. -/
  | relationship (relationship : Relationship)
  /-- A member of the enterprise. -/
  | enterpriseMember (element : Element)
  /-- A relationship of the enterprise. -/
  | enterpriseRelationship (relationship : Relationship)

/-- What is declared in the body of an enterprise. -/
def Enterprise.parts (enterprise : Enterprise) : List Part :=
  enterprise.members.map .enterpriseMember ++
    enterprise.relationships.map .enterpriseRelationship

namespace Model

/-- What a model declares outside of its enterprise. -/
def ownParts (model : Model) : List Part :=
  model.members.map .member ++ model.relationships.map .relationship

/-- What a model declares in its enterprise. -/
def enterpriseParts (model : Model) : List Part :=
  match model.enterprise with
  | some enterprise => enterprise.parts
  | none => []

/-- What a model declares. -/
def parts (model : Model) : List Part := model.ownParts ++ model.enterpriseParts

/-- Without places there is an enterprise exactly if there is one. -/
theorem enterprise_unplaced (model : Model) :
    model.unplaced.enterprise = none ↔ model.enterprise = none := by
  unfold unplaced
  exact Option.map_eq_none_iff

/-- Without places something is declared in the enterprise exactly if something is. -/
theorem enterpriseParts_unplaced (model : Model) :
    model.unplaced.enterpriseParts = [] ↔ model.enterpriseParts = [] := by
  unfold unplaced enterpriseParts
  cases model.enterprise with
  | none => exact Iff.rfl
  | some enterprise =>
    simp [Enterprise.unplaced, Enterprise.parts, Element.unplacedOfList_eq]

/-! ## One model below the other -/

/-- The second of two lists and the first of two others change places. -/
theorem perm_shuffle {α : Type} (first second third fourth : List α) :
    (first ++ second ++ (third ++ fourth)).Perm (first ++ third ++ (second ++ fourth)) := by
  simp only [List.append_assoc]
  refine .append_left first ?_
  rw [← List.append_assoc, ← List.append_assoc]
  exact List.perm_append_comm.append_right fourth

/-- A model is put together of two: it has what either declares, but only one enterprise, and that
of the second one is preferred. -/
structure Joins (first second whole : Model) : Prop where
  /-- The members of both are members. -/
  members : whole.members.Perm (first.members ++ second.members)
  /-- The relationships of both are relationships. -/
  relationships : whole.relationships = first.relationships ++ second.relationships
  /-- An enterprise of the second one replaces that of the first one. -/
  enterprise : whole.enterprise = second.enterprise.or first.enterprise

namespace Joins

/-- With a further statement in the second body there is one in the whole. -/
theorem add (h : Joins first second whole) (entry : BodyEntry) :
    Joins first (second.add entry) (whole.add entry) := by
  obtain ⟨hm, hr, he⟩ := h
  cases entry with
  | edit change => cases change <;> exact ⟨hm, hr, he⟩
  | relationship relationship =>
    refine ⟨hm, ?_, he⟩
    simp only [Model.add, hr, List.append_assoc]
  | member member =>
    refine ⟨?_, hr, he⟩
    have hwhole := insertByRank_perm Element.rankInModel member whole.members
    have hsecond := insertByRank_perm Element.rankInModel member second.members
    refine (hwhole.trans (hm.cons member)).trans ?_
    exact List.perm_middle.symm.trans (hsecond.symm.append_left first.members)
  | enterprise enterprise => exact ⟨hm, hr, rfl⟩

/-- With further statements in the second body there are as many in the whole. -/
theorem foldl_add (h : Joins first second whole) (entries : List BodyEntry) :
    Joins first (entries.foldl Model.add second) (entries.foldl Model.add whole) := by
  induction entries generalizing second whole with
  | nil => exact h
  | cons entry entries ih => exact ih (h.add entry)

/-- Statements below others declare what they declare alone, and the others what they declared. -/
theorem of_entries (first : Model) (position : Option Position) (entries : List BodyEntry) :
    Joins first (entries.foldl Model.add { position }) (entries.foldl Model.add first) :=
  foldl_add ⟨by rw [List.append_nil], (List.append_nil _).symm, rfl⟩ entries

/-- Places do not matter for what is put together. -/
theorem unplaced (h : Joins first second whole) :
    Joins first.unplaced second.unplaced whole.unplaced where
  members := by
    simp only [Model.unplaced, Element.unplacedOfList_eq, ← List.map_append]
    exact h.members.map _
  relationships := by
    simp only [Model.unplaced, h.relationships, List.map_append]
  enterprise := by
    simp only [Model.unplaced, h.enterprise]
    cases second.enterprise <;> rfl

/-- What either model declares outside of its enterprise is declared. -/
theorem ownParts_perm (h : Joins first second whole) :
    whole.ownParts.Perm (first.ownParts ++ second.ownParts) := by
  unfold ownParts
  rw [h.relationships, List.map_append]
  refine ((h.members.map _).append_right _).trans ?_
  rw [List.map_append]
  exact perm_shuffle _ _ _ _

/-- What is declared in the enterprise is what the preferred one declares. -/
theorem enterpriseParts_eq (h : Joins first second whole) :
    whole.enterpriseParts =
      if second.enterprise.isSome then second.enterpriseParts else first.enterpriseParts := by
  unfold enterpriseParts
  rw [h.enterprise]
  cases second.enterprise <;> rfl

/-- What the second model declares is declared, and what the first one declares outside of its
enterprise; and what it declares in there, unless the second one has an enterprise. -/
theorem parts_perm (h : Joins first second whole) :
    whole.parts.Perm ((if second.enterprise.isSome then first.ownParts else first.parts) ++
      second.parts) := by
  unfold parts
  rw [h.enterpriseParts_eq]
  refine (h.ownParts_perm.append_right _).trans ?_
  cases he : second.enterprise with
  | none =>
    have hnone : second.enterpriseParts = [] := by rw [enterpriseParts, he]
    have hs := perm_shuffle first.ownParts second.ownParts first.enterpriseParts []
    rw [List.append_nil] at hs
    rw [hnone]
    exact hs
  | some enterprise =>
    rw [List.append_assoc]
    exact .refl _

/-- What the second model declares is declared, and what the first one declares outside of its
enterprise. -/
theorem subperm_parts (h : Joins first second whole) :
    (first.ownParts ++ second.parts).Subperm whole.parts := by
  have hown : (first.ownParts ++ second.parts).Subperm
      ((if second.enterprise.isSome then first.ownParts else first.parts) ++ second.parts) := by
    refine (List.Sublist.append_right ?_ _).subperm
    split
    · exact List.Sublist.refl _
    · exact List.sublist_append_left _ _
  exact hown.trans h.parts_perm.symm.subperm

/-- All that both models declare is declared exactly if the second one has no enterprise or the
first one declares nothing in its own. -/
theorem subperm_parts_iff (h : Joins first second whole) :
    (first.parts ++ second.parts).Subperm whole.parts ↔
      second.enterprise = none ∨ first.enterpriseParts = [] := by
  have hperm := h.parts_perm
  cases he : second.enterprise with
  | none =>
    rw [he] at hperm
    exact ⟨fun _ => .inl rfl, fun _ => hperm.symm.subperm⟩
  | some enterprise =>
    rw [he] at hperm
    have hlost : first.enterpriseParts = [] ↔ first.ownParts = first.parts := by
      unfold parts
      rw [List.self_eq_append_right]
    constructor
    · intro hs
      have hle := hs.length_le
      have heq := hperm.length_eq
      refine .inr (List.eq_nil_of_length_eq_zero ?_)
      simp only [parts, List.length_append, Option.isSome_some, if_true] at hle heq
      omega
    · rintro (hnone | hnone)
      · cases hnone
      · rw [hlost.mp hnone] at hperm
        exact hperm.symm.subperm

end Joins

end Model

end Blueprint.Declared
