import Blueprint.Proofs.Resolved.Ancestors

/-!
# Implied relationships

The relationships that are added to a model are exactly the closure of the declared ones under going
from an element to one around it, without what is declared already and without pairs of which one
element stands in the other. Every pair is added once, for the first declared relationship that
implies it, though the list that is asked for existing pairs grows meanwhile. Nothing further is
implied by what has been added.
-/

namespace Blueprint.Resolved

/-- The two elements that a relationship relates. -/
def Relationship.ends (relationship : Relationship) : String × String :=
  (relationship.source, relationship.destination)

/-- There is a relationship between two elements if they are the ends of one. -/
theorem Model.hasRelationship_iff {model : Model} {ends : String × String} :
    model.hasRelationship ends.1 ends.2 = true ↔
      ends ∈ model.relationships.map Relationship.ends := by
  simp [Model.hasRelationship, Relationship.ends, Prod.ext_iff]

end Blueprint.Resolved

namespace Blueprint.Build

open Resolved (Model Relationship)

/-! ## What is implied -/

/-- A declared relationship implies one between two elements: each is an end of it or around that
end, and neither is the other or around the other. -/
def Implies (model : Model) (declared : Relationship) (ends : String × String) : Prop :=
  ends.1 ∈ withAncestors model declared.source ∧
    ends.2 ∈ withAncestors model declared.destination ∧
    ends.1 ≠ ends.2 ∧ ends.2 ∉ model.ancestorsOf ends.1 ∧ ends.1 ∉ model.ancestorsOf ends.2

instance (model : Model) (declared : Relationship) (ends : String × String) :
    Decidable (Implies model declared ends) := by
  unfold Implies
  infer_instance

/-- The implied relationship between two elements. -/
def impliedBetween (declared : Relationship) (ends : String × String) (id : String) :
    Relationship where
  id := id
  source := ends.1
  destination := ends.2
  description := declared.description
  technology := declared.technology
  implied := true

/-- Relationships that are implied by those of a model. -/
structure ImpliedBy (model : Model) (implied : List Relationship) : Prop where
  /-- They relate what some relationship implies and none relates. -/
  mem_iff : ∀ ends, ends ∈ implied.map Relationship.ends ↔
    (∃ declared ∈ model.relationships, Implies model declared ends) ∧
      ends ∉ model.relationships.map Relationship.ends
  /-- No two relate the same elements. -/
  distinct : (implied.map Relationship.ends).Nodup
  /-- What is said about them is said by the first relationship that implies them. -/
  first : ∀ relationship ∈ implied, ∃ declared,
    model.relationships.find? (fun other => Implies model other relationship.ends) =
      some declared ∧
    relationship = impliedBetween declared relationship.ends relationship.id

/-! ## One walk through all pairs -/

/-- A declared relationship with a pair that it implies. -/
abbrev Implication := Relationship × String × String

/-- What the relationships of a model imply, in the order in which it is added. -/
def implications (model : Model) : List Implication :=
  model.relationships.flatMap fun declared =>
    (impliedPairs model declared.source declared.destination).map fun ends => (declared, ends)

/-- Adds the relationship that is implied unless the two elements are related. -/
def addImplication (model : Model) (implication : Implication) : Model :=
  addImplied implication.1 model implication.2

/-- Adding what each relationship implies is adding all implications one after the other. -/
theorem addAllImplied_eq_foldl (model : Model) :
    addAllImplied model = (implications model).foldl addImplication model := by
  unfold addAllImplied implications
  rw [List.foldl_flatMap]
  congr 1
  funext extended declared
  rw [List.foldl_map]
  rfl

/-- An implication joins a relationship of the model to a pair that it implies. -/
theorem mem_implications {model : Model} {declared : Relationship} {ends : String × String} :
    (declared, ends) ∈ implications model ↔
      declared ∈ model.relationships ∧ Implies model declared ends := by
  unfold implications
  constructor
  · intro h
    obtain ⟨other, hm, h⟩ := List.mem_flatMap.mp h
    obtain ⟨_, hi, he⟩ := List.mem_map.mp h
    cases he
    exact ⟨hm, mem_impliedPairs.mp hi⟩
  · intro ⟨hm, hi⟩
    refine List.mem_flatMap.mpr ⟨declared, hm, ?_⟩
    exact List.mem_map.mpr ⟨ends, mem_impliedPairs.mpr hi, rfl⟩

/-- The first implication of a pair is made by the first relationship that implies it. -/
theorem find?_implications (model : Model) (ends : String × String) :
    (implications model).find? (fun implication => implication.2 == ends) =
      (model.relationships.find? fun declared => Implies model declared ends).map
        fun declared => (declared, ends) := by
  unfold implications
  induction model.relationships with
  | nil => rfl
  | cons declared rest ih =>
    rw [List.flatMap_cons, List.find?_append, ih, List.find?_map]
    have hcomp : ((fun implication : Implication => implication.2 == ends) ∘
        fun pair => (declared, pair)) = fun pair => pair == ends := rfl
    rw [hcomp]
    by_cases hi : Implies model declared ends
    · have hf : (impliedPairs model declared.source declared.destination).find?
          (fun pair => pair == ends) = some ends := by
        cases hf : (impliedPairs model declared.source declared.destination).find?
            fun pair => pair == ends with
        | none => simpa using List.find?_eq_none.mp hf ends (mem_impliedPairs.mpr hi)
        | some pair =>
          have he : pair = ends := by simpa using List.find?_some hf
          rw [he]
      rw [hf, List.find?_cons_of_pos (by simpa using hi)]
      rfl
    · have hf : (impliedPairs model declared.source declared.destination).find?
          (fun pair => pair == ends) = none := by
        refine List.find?_eq_none.mpr fun pair hm he => hi ?_
        have he : pair = ends := by simpa using he
        exact he ▸ mem_impliedPairs.mp hm
      rw [hf, List.find?_cons_of_neg (by simpa using hi)]
      rfl

/-! ## What is added -/

/-- Relationships that are added to a model for a list of implications. -/
structure AddedFor (model : Model) (todo : List Implication) (added : List Relationship) :
    Prop where
  /-- They relate the pairs of the list that were not related before. -/
  mem_iff : ∀ ends, ends ∈ added.map Relationship.ends ↔
    ends ∈ todo.map Prod.snd ∧ ends ∉ model.relationships.map Relationship.ends
  /-- No two relate the same elements. -/
  distinct : (added.map Relationship.ends).Nodup
  /-- They say what the first implication of their pair says. -/
  first : ∀ relationship ∈ added, ∃ declared,
    todo.find? (fun implication => implication.2 == relationship.ends) =
      some (declared, relationship.ends) ∧
    relationship = impliedBetween declared relationship.ends relationship.id

/-- A model with further relationships. -/
def extend (model : Model) (added : List Relationship) : Model :=
  { model with relationships := model.relationships ++ added }

/-- An implication of a pair that is related adds nothing. -/
theorem addImplication_of_mem {model : Model} {implication : Implication}
    (h : implication.2 ∈ model.relationships.map Relationship.ends) :
    addImplication model implication = model := by
  unfold addImplication addImplied
  rw [if_pos (Model.hasRelationship_iff.mpr h)]

/-- An implication of a pair that is not related adds a relationship with a new identifier. -/
theorem addImplication_of_not_mem {model : Model} {implication : Implication}
    (h : implication.2 ∉ model.relationships.map Relationship.ends) :
    addImplication model implication =
      extend model [impliedBetween implication.1 implication.2
        (nextRelationshipId model.relationships)] := by
  unfold addImplication addImplied
  rw [if_neg fun hr => h (Model.hasRelationship_iff.mp hr)]
  rfl

/-- A list that starts with an implication of a related pair adds what the rest of it adds. -/
theorem AddedFor.cons_of_mem {model : Model} {implication : Implication}
    {todo : List Implication} {added : List Relationship}
    (h : implication.2 ∈ model.relationships.map Relationship.ends)
    (ha : AddedFor model todo added) : AddedFor model (implication :: todo) added where
  mem_iff ends := by
    rw [ha.mem_iff, List.map_cons, List.mem_cons]
    constructor
    · intro ⟨hm, hn⟩
      exact ⟨.inr hm, hn⟩
    · intro ⟨hm, hn⟩
      rcases hm with rfl | hm
      · exact absurd h hn
      · exact ⟨hm, hn⟩
  distinct := ha.distinct
  first relationship hr := by
    have hn := ((ha.mem_iff _).mp (List.mem_map_of_mem hr)).2
    have hne : implication.2 ≠ relationship.ends := fun he => hn (he ▸ h)
    rw [List.find?_cons_of_neg (by simpa using hne)]
    exact ha.first relationship hr

/-- A list that starts with an implication of a pair that is not related adds a relationship for it,
and then what the rest adds to the larger model. -/
theorem AddedFor.cons_of_not_mem {model : Model} {implication : Implication}
    {todo : List Implication} {added : List Relationship} {id : String}
    (h : implication.2 ∉ model.relationships.map Relationship.ends)
    (ha : AddedFor (extend model [impliedBetween implication.1 implication.2 id]) todo added) :
    AddedFor model (implication :: todo)
      (impliedBetween implication.1 implication.2 id :: added) := by
  have hends : (impliedBetween implication.1 implication.2 id).ends = implication.2 := rfl
  have hmem : ∀ ends, ends ∈ added.map Relationship.ends ↔ ends ∈ todo.map Prod.snd ∧
      ends ∉ model.relationships.map Relationship.ends ∧ ends ≠ implication.2 := by
    intro ends
    rw [ha.mem_iff]
    simp only [extend, List.map_append, List.map_cons, List.map_nil, hends, List.mem_append,
      List.mem_singleton, not_or, ne_eq]
  refine ⟨?_, ?_, ?_⟩
  · intro ends
    rw [List.map_cons, List.mem_cons, hends, hmem, List.map_cons, List.mem_cons]
    by_cases he : ends = implication.2
    · simp only [he, true_or, true_and, true_iff]
      exact h
    · simp only [he, false_or, ne_eq, not_false_eq_true, and_true]
  · rw [List.map_cons, hends]
    exact List.nodup_cons.mpr ⟨fun hm => ((hmem _).mp hm).2.2 rfl, ha.distinct⟩
  · intro relationship hr
    rcases List.mem_cons.mp hr with rfl | hr
    · exact ⟨implication.1, List.find?_cons_of_pos (by simp [hends]), rfl⟩
    · have hne := ((hmem _).mp (List.mem_map_of_mem hr)).2.2
      rw [List.find?_cons_of_neg (by simpa using Ne.symm hne)]
      exact ha.first relationship hr

/-- A walk through implications extends the model by what is to be added for them. -/
theorem foldl_addImplication (todo : List Implication) (model : Model) :
    ∃ added, todo.foldl addImplication model = extend model added ∧
      AddedFor model todo added := by
  induction todo generalizing model with
  | nil =>
    refine ⟨[], ?_, ?_⟩
    · simp [extend]
    · constructor <;> simp
  | cons implication todo ih =>
    rw [List.foldl_cons]
    by_cases hm : implication.2 ∈ model.relationships.map Relationship.ends
    · rw [addImplication_of_mem hm]
      obtain ⟨added, he, ha⟩ := ih model
      exact ⟨added, he, ha.cons_of_mem hm⟩
    · rw [addImplication_of_not_mem hm]
      obtain ⟨added, he, ha⟩ := ih (extend model [impliedBetween implication.1 implication.2
        (nextRelationshipId model.relationships)])
      refine ⟨_, ?_, ha.cons_of_not_mem hm⟩
      rw [he]
      simp [extend]

/-- A model is extended by the relationships that it implies. -/
theorem addAllImplied_eq_extend (model : Model) :
    ∃ implied, addAllImplied model = extend model implied ∧ ImpliedBy model implied := by
  obtain ⟨added, he, ha⟩ := foldl_addImplication (implications model) model
  refine ⟨added, (addAllImplied_eq_foldl model).trans he, ?_, ha.distinct, ?_⟩
  · intro ends
    rw [ha.mem_iff]
    have hoffered : ends ∈ (implications model).map Prod.snd ↔
        ∃ declared ∈ model.relationships, Implies model declared ends := by
      constructor
      · intro h
        obtain ⟨⟨declared, _⟩, hm, rfl⟩ := List.mem_map.mp h
        exact ⟨declared, mem_implications.mp hm⟩
      · intro ⟨declared, hm⟩
        exact List.mem_map.mpr ⟨(declared, ends), mem_implications.mpr hm, rfl⟩
    rw [hoffered]
  · intro relationship hr
    obtain ⟨declared, hf, hd⟩ := ha.first relationship hr
    rw [find?_implications] at hf
    obtain ⟨other, ho, he⟩ := Option.map_eq_some_iff.mp hf
    cases he
    exact ⟨declared, ho, hd⟩

/-! ## Nothing further -/

/-- Where all that is implied is related, nothing is added. -/
theorem addAllImplied_eq_self {model : Model}
    (h : ∀ declared ∈ model.relationships, ∀ ends, Implies model declared ends →
      ends ∈ model.relationships.map Relationship.ends) : addAllImplied model = model := by
  obtain ⟨implied, he, hi⟩ := addAllImplied_eq_extend model
  have hnil : implied = [] := by
    refine List.eq_nil_iff_forall_not_mem.mpr fun relationship hr => ?_
    obtain ⟨⟨declared, hd, hm⟩, hn⟩ := (hi.mem_iff _).mp (List.mem_map_of_mem hr)
    exact hn (h declared hd _ hm)
  rw [he, hnil]
  simp [extend]

/-- What is around an element around an end of a relationship is around that end. -/
theorem withAncestors_trans {model : Model} (h : model.IsTree) {id inner outer : String}
    (hi : inner ∈ withAncestors model id) (ho : outer ∈ withAncestors model inner) :
    outer ∈ withAncestors model id := by
  rcases List.mem_cons.mp hi with rfl | hi
  · exact ho
  · rcases List.mem_cons.mp ho with rfl | ho
    · exact List.mem_cons_of_mem _ hi
    · exact List.mem_cons_of_mem _ (h.ancestorsOf_trans hi ho)

/-- Further relationships do not change what a relationship implies. -/
theorem implies_extend {model : Model} {added : List Relationship} {declared : Relationship}
    {ends : String × String} :
    Implies (extend model added) declared ends ↔ Implies model declared ends := by
  have ha : ∀ id, (extend model added).ancestorsOf id = model.ancestorsOf id :=
    Model.ancestorsOf_of_elements rfl
  simp only [Implies, withAncestors, ha]

/-- An implied relationship implies nothing that the relationship which implies it does not. -/
theorem Implies.trans {model : Model} (h : model.IsTree) {declared implied : Relationship}
    {ends : String × String} (hd : Implies model declared implied.ends)
    (hi : Implies model implied ends) : Implies model declared ends :=
  ⟨withAncestors_trans h hd.1 hi.1, withAncestors_trans h hd.2.1 hi.2.1, hi.2.2⟩

/-- A model that has been extended by what it implies implies nothing further. -/
theorem ImpliedBy.addAllImplied_extend {model : Model} (h : model.IsTree)
    {implied : List Relationship} (hi : ImpliedBy model implied) :
    addAllImplied (extend model implied) = extend model implied := by
  refine addAllImplied_eq_self fun relationship hr ends he => ?_
  rw [implies_extend] at he
  have hdeclared : ∃ declared ∈ model.relationships, Implies model declared ends := by
    rcases List.mem_append.mp hr with hr | hr
    · exact ⟨relationship, hr, he⟩
    · obtain ⟨⟨declared, hd, hm⟩, _⟩ := (hi.mem_iff _).mp (List.mem_map_of_mem hr)
      exact ⟨declared, hd, hm.trans h he⟩
  unfold extend
  rw [List.map_append, List.mem_append]
  by_cases hm : ends ∈ model.relationships.map Relationship.ends
  · exact .inl hm
  · exact .inr ((hi.mem_iff _).mpr ⟨hdeclared, hm⟩)

/-! ## Workspaces -/

/-- Relationships that are bound are declared ones. -/
theorem resolveRelationships_declared {registry : Registry} {known : List Relationship}
    (hk : ∀ relationship ∈ known, relationship.implied = false)
    (queue : List WaitingRelationship) :
    ∀ relationship ∈ (resolveRelationships registry known queue).value,
      relationship.implied = false := by
  induction queue generalizing known with
  | nil => exact hk
  | cons waiting queue ih =>
    rw [resolveRelationships, Reported.bind_value]
    refine ih fun relationship hr => ?_
    rcases List.mem_append.mp hr with hr | hr
    · exact hk relationship hr
    · have hs := Option.mem_toList.mp hr
      unfold resolveRelationship at hs
      simp only [Reported.bind_value] at hs
      split at hs
      · split at hs
        · split at hs
          · cases hs
          · cases hs
            rfl
        · cases hs
          rfl
      · cases hs

/-- A workspace with further relationships. -/
def extendWorkspace (workspace : Resolved.Workspace) (added : List Relationship) :
    Resolved.Workspace :=
  { workspace with model := extend workspace.model added }

/-- The model with implied relationships is the one without, extended by what it implies. -/
theorem buildModel_implied {declared : Declared.Workspace} (h : forbidsImplied declared = false)
    (draft : Draft) :
    (buildModel declared draft true).value =
        addAllImplied (buildModel declared draft false).value ∧
      (buildModel declared draft true).diagnostics =
        (buildModel declared draft false).diagnostics := by
  unfold buildModel
  rw [h]
  exact ⟨rfl, rfl⟩

/-- Building with implied relationships changes nothing but the model. -/
theorem build_implied {declared : Declared.Workspace} (h : forbidsImplied declared = false) :
    (build declared true).value =
        { (build declared false).value with
          model := addAllImplied (build declared false).value.model } ∧
      (build declared true).diagnostics = (build declared false).diagnostics := by
  obtain ⟨hv, hd⟩ := buildModel_implied h (registerAll declared).value
  unfold build buildWith
  simp only [Reported.bind_value, Reported.pure_value, Reported.bind_diagnostics,
    Reported.pure_diagnostics, hv, hd]
  exact ⟨trivial, trivial⟩

/-- With implied relationships a workspace is built that has exactly the closure of the declared
relationships behind them, and is otherwise the one that is built without. To derive the closure
again adds nothing. -/
theorem build_closes {declared : Declared.Workspace} (h : forbidsImplied declared = false) :
    ∃ implied,
      (build declared true).value = extendWorkspace (build declared false).value implied ∧
      (build declared true).diagnostics = (build declared false).diagnostics ∧
      (∀ relationship ∈ (build declared false).value.model.relationships,
        relationship.implied = false) ∧
      ImpliedBy (build declared false).value.model implied ∧
      addAllImplied (build declared true).value.model = (build declared true).value.model := by
  obtain ⟨hv, hd⟩ := build_implied h
  obtain ⟨implied, he, hi⟩ := addAllImplied_eq_extend (build declared false).value.model
  have hw : (build declared true).value =
      extendWorkspace (build declared false).value implied := by
    rw [hv, he]
    rfl
  refine ⟨implied, hw, hd, ?_, hi, ?_⟩
  · exact resolveRelationships_declared (by simp) _
  · rw [hw]
    exact hi.addAllImplied_extend (isTree_build declared false)

/-- A customer who uses a part of a shop. -/
def usedShop : Declared.Workspace where
  name := none
  model := some
    { members :=
        [.plain (.person none) { identifier := some "customer", name := "Customer" } [] [],
          .plain (.softwareSystem none) { identifier := some "shop", name := "Shop" } []
            [.plain (.container none) { identifier := some "site", name := "Site" } [] []]]
      relationships := [{ source := "customer", destination := "site" }] }

/-- The customer of the shop also uses the shop, and nothing else is implied. -/
theorem build_closes_usedShop :
    forbidsImplied usedShop = false ∧
      ∃ implied,
        (build usedShop true).value = extendWorkspace (build usedShop false).value implied ∧
        ImpliedBy (build usedShop false).value.model implied ∧
        implied.map Relationship.ends = [("customer", "shop")] := by
  have hf : forbidsImplied usedShop = false := by decide
  obtain ⟨implied, hw, _, _, hi, _⟩ := build_closes hf
  refine ⟨hf, implied, hw, hi, ?_⟩
  have hdeclared : (build usedShop false).value.model.relationships.map Relationship.ends =
      [("customer", "site")] := by
    decide +kernel
  have hall : (build usedShop true).value.model.relationships.map Relationship.ends =
      [("customer", "site"), ("customer", "shop")] := by
    decide +kernel
  rw [hw] at hall
  simp only [extendWorkspace, extend, List.map_append, hdeclared, List.cons_append,
    List.nil_append, List.cons.injEq, true_and] at hall
  exact hall

end Blueprint.Build
