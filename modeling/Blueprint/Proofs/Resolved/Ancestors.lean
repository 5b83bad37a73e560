import Blueprint.Proofs.Integrity
import Mathlib.Data.List.Nodup

/-!
# Elements around elements

Where identifiers are distinct and every element comes after its parent, the way up from an element
never comes back to itself. So it is followed to its end: the elements around an element are exactly
those that it stands in, however far in.
-/

namespace Blueprint.Resolved

namespace Model

variable {model : Model} {seen : List String} {id parent ancestor inner outer : String}

/-- Identifiers are distinct, and every element comes after its parent. -/
structure IsTree (model : Model) : Prop where
  /-- No two elements have one identifier. -/
  distinct : model.ids.Nodup
  /-- Every element comes after its parent. -/
  parents : ParentsFirst model.elements

/-- Where identifiers are distinct, the parent of an element is what it stands in. -/
theorem parentOf?_eq_some_iff (h : model.ids.Nodup) :
    model.parentOf? inner = some outer ↔ StandsIn model.elements inner outer := by
  unfold parentOf? get?
  constructor
  · intro hp
    obtain ⟨element, hf, hu⟩ := Option.bind_eq_some_iff.mp hp
    have hid : element.id = inner := by simpa using List.find?_some hf
    exact ⟨element, List.mem_of_find?_eq_some hf, hid, hu⟩
  · rintro ⟨element, hm, rfl, hu⟩
    cases hf : model.elements.find? fun other => other.id == element.id with
    | none => simpa using List.find?_eq_none.mp hf element hm
    | some other =>
      have hid : other.id = element.id := by simpa using List.find?_some hf
      have he : other = element :=
        List.inj_on_of_nodup_map h (List.mem_of_find?_eq_some hf) hm hid
      rw [Option.bind_some, he]
      exact hu

/-- Nothing is around an element without a parent. -/
theorem ancestorsOutside_of_none (h : model.parentOf? id = none) :
    model.ancestorsOutside seen id = [] := by
  rw [ancestorsOutside]
  split
  · rfl
  · rename_i parent hp
    rw [h] at hp
    cases hp

/-- A parent that has not been passed is around an element, with what is around the parent. -/
theorem ancestorsOutside_of_some (h : model.parentOf? id = some parent) (hs : parent ∉ seen) :
    model.ancestorsOutside seen id =
      parent :: model.ancestorsOutside (seen ++ [parent]) parent := by
  rw [ancestorsOutside]
  split
  · rename_i hn
    rw [h] at hn
    cases hn
  · rename_i other ho
    rw [h] at ho
    cases ho
    rw [dif_neg hs]

/-- A parent that has been passed ends the way up. -/
theorem ancestorsOutside_of_mem (h : model.parentOf? id = some parent) (hs : parent ∈ seen) :
    model.ancestorsOutside seen id = [] := by
  rw [ancestorsOutside]
  split
  · rfl
  · rename_i other ho
    rw [h] at ho
    cases ho
    rw [dif_pos hs]

/-- What is around an element depends on the elements alone. -/
theorem ancestorsOf_of_elements {other : Model} (h : other.elements = model.elements)
    (id : String) : other.ancestorsOf id = model.ancestorsOf id := by
  have hp : ∀ id, other.parentOf? id = model.parentOf? id := by
    intro id
    unfold parentOf? get?
    rw [h]
  suffices hout : ∀ seen, other.ancestorsOutside seen id = model.ancestorsOutside seen id from
    hout []
  intro seen
  fun_induction ancestorsOutside model seen id with
  | case1 seen id hn => exact ancestorsOutside_of_none ((hp id).trans hn)
  | case2 seen id parent hs hm => exact ancestorsOutside_of_mem ((hp id).trans hs) hm
  | case3 seen id parent hs hm ih =>
    exact (ancestorsOutside_of_some ((hp id).trans hs) hm).trans (congrArg _ ih)

namespace IsTree

/-- The parent of an element comes earlier. -/
theorem idxOf_lt (h : model.IsTree) (hp : model.parentOf? inner = some outer) :
    model.ids.idxOf outer < model.ids.idxOf inner :=
  ((parentOf?_eq_some_iff h.distinct).mp hp).idxOf_lt h.distinct h.parents

/-- What has been passed does not matter on the way up if it comes no earlier. -/
theorem ancestorsOutside_eq (h : model.IsTree)
    (hs : ∀ passed ∈ seen, model.ids.idxOf id ≤ model.ids.idxOf passed) :
    model.ancestorsOutside seen id = model.ancestorsOf id := by
  generalize hn : model.ids.idxOf id = place at hs
  induction place using Nat.strongRecOn generalizing seen id with
  | ind place ih =>
    unfold ancestorsOf
    cases hp : model.parentOf? id with
    | none => rw [ancestorsOutside_of_none hp, ancestorsOutside_of_none hp]
    | some parent =>
      have hlt : model.ids.idxOf parent < place := hn ▸ h.idxOf_lt hp
      have hnot : parent ∉ seen := fun hm => Nat.not_le_of_lt hlt (hs parent hm)
      have hseen : ∀ passed ∈ seen ++ [parent],
          model.ids.idxOf parent ≤ model.ids.idxOf passed := by
        intro passed hm
        rcases List.mem_append.mp hm with hm | hm
        · have := hs passed hm
          omega
        · exact Nat.le_of_eq (by rw [List.mem_singleton.mp hm])
      have hself : ∀ passed ∈ [] ++ [parent],
          model.ids.idxOf parent ≤ model.ids.idxOf passed := by
        intro passed hm
        exact Nat.le_of_eq (by rw [List.mem_singleton.mp hm])
      rw [ancestorsOutside_of_some hp hnot, ancestorsOutside_of_some hp List.not_mem_nil,
        ih _ hlt rfl hseen, ih _ hlt rfl hself]

/-- Around an element are its parent and what is around its parent. -/
theorem ancestorsOf_of_some (h : model.IsTree) (hp : model.parentOf? id = some parent) :
    model.ancestorsOf id = parent :: model.ancestorsOf parent := by
  unfold ancestorsOf
  rw [ancestorsOutside_of_some hp List.not_mem_nil, h.ancestorsOutside_eq]
  · rfl
  · intro passed hm
    exact Nat.le_of_eq (by rw [List.mem_singleton.mp hm])

/-- Around an element is exactly what it stands in, however far in. -/
theorem mem_ancestorsOf_iff (h : model.IsTree) :
    ancestor ∈ model.ancestorsOf id ↔ Relation.TransGen (StandsIn model.elements) id ancestor := by
  constructor
  · intro hm
    generalize hn : model.ids.idxOf id = place
    induction place using Nat.strongRecOn generalizing id with
    | ind place ih =>
      cases hp : model.parentOf? id with
      | none =>
        rw [ancestorsOf, ancestorsOutside_of_none hp] at hm
        cases hm
      | some parent =>
        have hstep := (parentOf?_eq_some_iff h.distinct).mp hp
        rw [h.ancestorsOf_of_some hp] at hm
        rcases List.mem_cons.mp hm with rfl | hm
        · exact .single hstep
        · exact .head hstep (ih _ (hn ▸ h.idxOf_lt hp) hm rfl)
  · intro hr
    induction hr using Relation.TransGen.head_induction_on with
    | single hs =>
      rw [h.ancestorsOf_of_some ((parentOf?_eq_some_iff h.distinct).mpr hs)]
      exact List.mem_cons_self
    | head hs _ ih =>
      rw [h.ancestorsOf_of_some ((parentOf?_eq_some_iff h.distinct).mpr hs)]
      exact List.mem_cons_of_mem _ ih

/-- What is around something around an element is around the element. -/
theorem ancestorsOf_trans (h : model.IsTree) (hi : inner ∈ model.ancestorsOf id)
    (ho : outer ∈ model.ancestorsOf inner) : outer ∈ model.ancestorsOf id := by
  rw [h.mem_ancestorsOf_iff] at hi ho ⊢
  exact hi.trans ho

end IsTree

end Model

end Blueprint.Resolved

namespace Blueprint.Build

open Resolved (Model)

/-- The elements of every workspace that is built are a tree. -/
theorem isTree_build (declared : Declared.Workspace) (implied : Bool) :
    (build declared implied).value.model.IsTree := by
  have hs := registerAll_sound declared
  have he := (buildModel_linked declared hs implied).1
  unfold build buildWith
  simp only [Reported.bind_value, Reported.pure_value]
  refine ⟨?_, ?_⟩
  · rw [Model.ids, he]
    exact hs.ids_nodup
  · rw [he]
    exact hs.parents

end Blueprint.Build
