import Blueprint.Proofs.Declared.Traversal
import Blueprint.Proofs.Tier.Nested

/-!
# Whether the members of groups fit

A group leaves the element around it as the parent of its members. So what counts for a member of a
group is the body around the group. In a model in which every body takes its members, an element
does not fit the nearest body around it that is no group's only if it stands in a group.
-/

namespace Blueprint.Grammar.BodyKind

/-- Whether an element may stand in a body that is no group's, perhaps in groups inside it. -/
def holds (around kind : BodyKind) : Bool :=
  kind == .group || (around != .group && around.allows kind)

/-- A body that takes an element holds it, unless it is that of a group. -/
theorem holds_of_allows {around kind : BodyKind} (hg : around ≠ .group)
    (ha : around.allows kind = true) : around.holds kind = true := by
  simp [holds, hg, ha]

end Blueprint.Grammar.BodyKind

namespace Blueprint.Declared

open Grammar (BodyKind)

/-! ## Members of groups -/

mutual

/-- Every member of a group in an element is one that the body around the group holds, given the
nearest body around the element that is no group's. -/
def Element.GroupsFit (around : BodyKind) : Element → Prop
  | .plain sort _ _ members =>
    (sort = .group → ∀ member ∈ members, around.holds member.bodyKind = true) ∧
      Element.AllGroupsFit (if sort = .group then around else sort.bodyKind) members
  | .environment _ _ members => Element.AllGroupsFit .deploymentEnvironment members
  | .deployed _ _ => True

/-- Every member of a group in elements is one that the body around the group holds. -/
def Element.AllGroupsFit (around : BodyKind) : List Element → Prop
  | [] => True
  | member :: members => Element.GroupsFit around member ∧ Element.AllGroupsFit around members

end

/-- The groups in elements fit if those in each of them do. -/
theorem Element.allGroupsFit_iff {around : BodyKind} {members : List Element} :
    Element.AllGroupsFit around members ↔ ∀ member ∈ members, member.GroupsFit around := by
  induction members with
  | nil => simp [AllGroupsFit]
  | cons member members ih => simp [AllGroupsFit, ih]

/-- Every member of a group of a model is one that the body around the group holds. -/
structure Model.GroupsFit (model : Model) : Prop where
  /-- The groups of the model itself. -/
  members : Element.AllGroupsFit .model model.members
  /-- The groups of the enterprise. -/
  enterprise : ∀ enterprise, model.enterprise = some enterprise →
    Element.AllGroupsFit .enterprise enterprise.members

/-- Every member of a group of a workspace is one that the body around the group holds. -/
def Workspace.GroupsFit (workspace : Workspace) : Prop :=
  ∀ model, workspace.model = some model → model.GroupsFit

/-! ## Occurrences -/

variable {whole : List Occurrence} {outer : Option Nat} {count : Nat} {around : BodyKind}

/-- The body that belongs to a place: that of the declaration there, or else that of the model. -/
def bodyAt (whole : List Occurrence) : Option Nat → BodyKind
  | none => .model
  | some place => ((whole[place]?).map fun occurrence => occurrence.node.bodyKind).getD .model

/-- An element is held by the nearest body around it that is no group's. -/
def Occurrence.Fits (whole : List Occurrence) (occurrence : Occurrence) : Prop :=
  (bodyAt whole occurrence.outer).holds occurrence.node.bodyKind = true

namespace Traversal

variable {good : Occurrence → Prop}

/-- All elements of two parts are good if those of each are. -/
theorem forall_occurrences_append {first second : Traversal} :
    (∀ occurrence ∈ (first ++ second).occurrences, good occurrence) ↔
      (∀ occurrence ∈ first.occurrences, good occurrence) ∧
        ∀ occurrence ∈ second.occurrences, good occurrence := by
  simp only [occurrences, nodes_append, deployments_append, List.map_append,
    List.forall_mem_append]
  constructor
  · intro ⟨⟨h₁, h₂⟩, h₃, h₄⟩
    exact ⟨⟨h₁, h₃⟩, h₂, h₄⟩
  · intro ⟨⟨h₁, h₃⟩, h₂, h₄⟩
    exact ⟨⟨h₁, h₂⟩, h₃, h₄⟩

/-- A part that is a single element has that one. -/
theorem forall_occurrences_node {node : Element} {mentions : List Mention} :
    (∀ occurrence ∈ (Traversal.mk [⟨node, outer⟩] mentions []).occurrences, good occurrence) ↔
      good ⟨node, outer⟩ := by
  simp [occurrences]

/-- Relationships alone have no elements. -/
theorem forall_occurrences_mentions {mentions : List Mention} :
    ∀ occurrence ∈ (Traversal.mk [] mentions []).occurrences, good occurrence := by
  simp [occurrences]

end Traversal

open Traversal

/-- The body of a declaration belongs to its place. -/
theorem bodyAt_of_drop {occurrence : Occurrence} {after : List Occurrence}
    (h : whole.drop count = occurrence :: after) :
    bodyAt whole (some count) = occurrence.node.bodyKind := by
  have hg : whole[count]? = some occurrence := by
    have hz := congrArg (fun list : List Occurrence => list[0]?) h
    simpa using hz
  simp [bodyAt, hg]

/-- What comes behind the elements of a part. -/
theorem drop_of_drop_append {first after : List Occurrence}
    (h : whole.drop count = first ++ after) : whole.drop (count + first.length) = after := by
  rw [← List.drop_drop, h, List.drop_left]

/-- What comes behind a single element. -/
theorem drop_of_drop_cons {occurrence : Occurrence} {after : List Occurrence}
    (h : whole.drop count = occurrence :: after) : whole.drop (count + 1) = after := by
  rw [← List.drop_drop, h]
  rfl

/-- A body holds the same members of groups as the body that belongs to a place. -/
def Agrees (whole : List Occurrence) (outer : Option Nat) (around : BodyKind) : Prop :=
  ∀ kind, BodyKind.group.allows kind = true →
    around.holds kind = (bodyAt whole outer).holds kind

/-- Members that the body at their place takes fit. -/
theorem fits_of_allNested {owner : BodyKind} {members : List Element}
    (hn : Element.AllNested owner members) (hg : owner ≠ .group)
    (hb : bodyAt whole outer = owner) :
    ∀ member ∈ members, Occurrence.Fits whole ⟨member, outer⟩ := by
  intro member hm
  unfold Occurrence.Fits
  rw [hb]
  exact BodyKind.holds_of_allows hg (Element.allNested_iff.mp hn member hm).1

/-- A plain element that is no group has no body of a group. -/
theorem PlainSort.bodyKind_ne_group {sort : PlainSort} (h : sort ≠ .group) :
    sort.bodyKind ≠ .group := by
  cases sort <;> first | exact absurd rfl h | nofun

/-! ## Which elements fit -/

mutual

/-- All elements in an element fit if it does and the members of groups in it do. -/
theorem Element.fits_traverse {whole : List Occurrence} {outer : Option Nat} {count : Nat}
    {around : BodyKind} (ha : Agrees whole outer around) :
    ∀ element : Element, element.Nested → ∀ {after : List Occurrence},
      whole.drop count = (element.traverse outer count).nodes ++ after →
      ((∀ occurrence ∈ (element.traverse outer count).occurrences, occurrence.Fits whole) ↔
        Occurrence.Fits whole ⟨element, outer⟩ ∧ element.GroupsFit around)
  | .plain sort details relationships members, hn, after, hw => by
    have hmembers := fun member hm => (Element.allNested_iff.mp hn member hm).2
    rw [traverse] at hw ⊢
    have hbody := bodyAt_of_drop hw
    have hinner := drop_of_drop_cons hw
    rw [forall_occurrences_append, forall_occurrences_node, GroupsFit]
    by_cases hs : sort = .group
    · -- The members of a group have the place of the group, so they fit if the body around it
      -- holds them.
      subst hs
      rw [if_pos rfl] at hinner ⊢
      rw [if_pos rfl, Element.fits_traverseAll ha members hmembers hinner]
      have hheld : (∀ member ∈ members, Occurrence.Fits whole ⟨member, outer⟩) ↔
          ∀ member ∈ members, around.holds member.bodyKind = true := by
        refine forall₂_congr fun member hm => ?_
        rw [ha _ (Element.allNested_iff.mp hn member hm).1]
        rfl
      simp only [hheld, true_implies]
    · rw [if_neg hs] at hinner ⊢
      have hinside : Agrees whole (some count) sort.bodyKind := by
        intro kind _
        rw [hbody]
        rfl
      have hfit := fits_of_allNested hn (PlainSort.bodyKind_ne_group hs) hbody
      rw [if_neg hs, Element.fits_traverseAll hinside members hmembers hinner]
      simp only [hs, false_implies, true_and, and_iff_right hfit]
  | .environment heading relationships members, hn, after, hw => by
    have hmembers := fun member hm => (Element.allNested_iff.mp hn member hm).2
    rw [traverse] at hw ⊢
    have hw : whole.drop count = ⟨.environment heading relationships members, outer⟩ ::
        ((Element.traverseAll (some count) (count + 1) members).nodes ++ after) := by
      simpa using hw
    have hbody := bodyAt_of_drop hw
    have hinside : Agrees whole (some count) .deploymentEnvironment := by
      intro kind _
      rw [hbody]
      rfl
    have hfit := fits_of_allNested hn nofun hbody
    rw [forall_occurrences_append, forall_occurrences_append, forall_occurrences_node, GroupsFit,
      Element.fits_traverseAll hinside members hmembers (drop_of_drop_cons hw)]
    simp only [and_iff_left forall_occurrences_mentions, and_iff_right hfit]
  | .deployed deployment relationships, _, _, _ => by
    rw [traverse, GroupsFit]
    simp [occurrences, Deployment.occurrence]

/-- All elements in elements fit if they do and the members of groups in them do. -/
theorem Element.fits_traverseAll {whole : List Occurrence} {outer : Option Nat} {count : Nat}
    {around : BodyKind} (ha : Agrees whole outer around) :
    ∀ members : List Element, (∀ member ∈ members, member.Nested) →
      ∀ {after : List Occurrence},
      whole.drop count = (Element.traverseAll outer count members).nodes ++ after →
      ((∀ occurrence ∈ (Element.traverseAll outer count members).occurrences,
          occurrence.Fits whole) ↔
        (∀ member ∈ members, Occurrence.Fits whole ⟨member, outer⟩) ∧
          Element.AllGroupsFit around members)
  | [], _, _, _ => by
    rw [traverseAll, AllGroupsFit]
    simp [occurrences]
  | member :: members, hn, after, hw => by
    obtain ⟨hm, hmembers⟩ := List.forall_mem_cons.mp hn
    rw [traverseAll] at hw ⊢
    rw [nodes_append, List.append_assoc] at hw
    rw [forall_occurrences_append, AllGroupsFit, List.forall_mem_cons,
      Element.fits_traverse ha member hm hw,
      Element.fits_traverseAll ha members hmembers (drop_of_drop_append hw)]
    constructor
    · intro ⟨⟨h₁, h₂⟩, h₃, h₄⟩
      exact ⟨⟨h₁, h₃⟩, h₂, h₄⟩
    · intro ⟨⟨h₁, h₃⟩, h₂, h₄⟩
      exact ⟨⟨h₁, h₂⟩, h₃, h₄⟩

end

/-- An element fits, unless it is of a sort that groups take. -/
def Occurrence.FitsOrGrouped (whole : List Occurrence) (occurrence : Occurrence) : Prop :=
  BodyKind.group.allows occurrence.node.bodyKind = true ∨ occurrence.Fits whole

mutual

/-- All elements in an element fit, unless they are of a sort that groups take. -/
theorem Element.fitsOrGrouped_traverse {whole : List Occurrence} {outer : Option Nat}
    {count : Nat} :
    ∀ element : Element, element.Nested → Occurrence.FitsOrGrouped whole ⟨element, outer⟩ →
      ∀ {after : List Occurrence},
      whole.drop count = (element.traverse outer count).nodes ++ after →
      ∀ occurrence ∈ (element.traverse outer count).occurrences, occurrence.FitsOrGrouped whole
  | .plain sort details relationships members, hn, hf, after, hw => by
    have hmembers := Element.allNested_iff.mp hn
    rw [traverse] at hw ⊢
    have hbody := bodyAt_of_drop hw
    have hinner := drop_of_drop_cons hw
    rw [forall_occurrences_append, forall_occurrences_node]
    refine ⟨hf, Element.fitsOrGrouped_traverseAll members (fun member hm => ?_) hinner⟩
    refine ⟨(hmembers member hm).2, ?_⟩
    by_cases hs : sort = .group
    · subst hs
      exact .inl (hmembers member hm).1
    · rw [if_neg hs]
      exact .inr (fits_of_allNested hn (PlainSort.bodyKind_ne_group hs) hbody member hm)
  | .environment heading relationships members, hn, hf, after, hw => by
    have hmembers := Element.allNested_iff.mp hn
    rw [traverse] at hw ⊢
    have hw : whole.drop count = ⟨.environment heading relationships members, outer⟩ ::
        ((Element.traverseAll (some count) (count + 1) members).nodes ++ after) := by
      simpa using hw
    have hbody := bodyAt_of_drop hw
    rw [forall_occurrences_append, forall_occurrences_append, forall_occurrences_node]
    refine ⟨⟨hf, ?_⟩, forall_occurrences_mentions⟩
    exact Element.fitsOrGrouped_traverseAll members (fun member hm =>
      ⟨(hmembers member hm).2, .inr (fits_of_allNested hn nofun hbody member hm)⟩)
      (drop_of_drop_cons hw)
  | .deployed deployment relationships, _, hf, _, _ => by
    rw [traverse]
    simpa [occurrences, Deployment.occurrence] using hf

/-- All elements in elements fit, unless they are of a sort that groups take. -/
theorem Element.fitsOrGrouped_traverseAll {whole : List Occurrence} {outer : Option Nat}
    {count : Nat} :
    ∀ members : List Element, (∀ member ∈ members, member.Nested ∧
        Occurrence.FitsOrGrouped whole ⟨member, outer⟩) →
      ∀ {after : List Occurrence},
      whole.drop count = (Element.traverseAll outer count members).nodes ++ after →
      ∀ occurrence ∈ (Element.traverseAll outer count members).occurrences,
        occurrence.FitsOrGrouped whole
  | [], _, _, _ => by
    rw [traverseAll]
    simp [occurrences]
  | member :: members, hn, after, hw => by
    obtain ⟨⟨hm, hf⟩, hmembers⟩ := List.forall_mem_cons.mp hn
    rw [traverseAll] at hw ⊢
    rw [nodes_append, List.append_assoc] at hw
    rw [forall_occurrences_append]
    exact ⟨Element.fitsOrGrouped_traverse member hm hf hw,
      Element.fitsOrGrouped_traverseAll members hmembers (drop_of_drop_append hw)⟩

end

/-! ## Models -/

/-- The elements that stand in a body outside of all elements fit exactly if the members of groups
in them do. -/
theorem Element.fits_outside {whole : List Occurrence} {count : Nat} {owner : BodyKind}
    (ho : ∀ kind, owner.allows kind = true → BodyKind.model.holds kind = true)
    (ha : Agrees whole none owner) {members : List Element}
    (hn : Element.AllNested owner members) {after : List Occurrence}
    (hw : whole.drop count = (Element.traverseAll none count members).nodes ++ after) :
    ((∀ occurrence ∈ (Element.traverseAll none count members).occurrences,
        occurrence.Fits whole) ↔ Element.AllGroupsFit owner members) ∧
      ∀ occurrence ∈ (Element.traverseAll none count members).occurrences,
        occurrence.FitsOrGrouped whole := by
  have hmembers := Element.allNested_iff.mp hn
  have hfit : ∀ member ∈ members, Occurrence.Fits whole ⟨member, none⟩ :=
    fun member hm => ho _ (hmembers member hm).1
  constructor
  · rw [Element.fits_traverseAll ha members (fun member hm => (hmembers member hm).2) hw]
    exact and_iff_right hfit
  · exact Element.fitsOrGrouped_traverseAll members
      (fun member hm => ⟨(hmembers member hm).2, .inr (hfit member hm)⟩) hw

/-- The elements of the enterprise fit exactly if the members of groups in them do. -/
theorem Enterprise.fits_traverse {whole : List Occurrence} {count : Nat}
    {enterprise : Option Enterprise}
    (hn : ∀ found, enterprise = some found → Element.AllNested .enterprise found.members)
    {after : List Occurrence}
    (hw : whole.drop count = (Enterprise.traverse count enterprise).nodes ++ after) :
    ((∀ occurrence ∈ (Enterprise.traverse count enterprise).occurrences,
        occurrence.Fits whole) ↔
      ∀ found, enterprise = some found → Element.AllGroupsFit .enterprise found.members) ∧
      ∀ occurrence ∈ (Enterprise.traverse count enterprise).occurrences,
        occurrence.FitsOrGrouped whole := by
  cases enterprise with
  | none => simp [Enterprise.traverse, occurrences]
  | some enterprise =>
    have hheld : ∀ kind, BodyKind.enterprise.allows kind = true →
        BodyKind.model.holds kind = true := by
      intro kind h
      cases kind <;> first | rfl | cases h
    have hagrees : Agrees whole none .enterprise := by
      intro kind h
      cases kind <;> first | rfl | cases h
    have hw : whole.drop count =
        (Element.traverseAll none count enterprise.members).nodes ++ after := by
      simpa [Enterprise.traverse] using hw
    obtain ⟨hfit, hgrouped⟩ := Element.fits_outside hheld hagrees (hn enterprise rfl) hw
    rw [Enterprise.traverse, forall_occurrences_append, forall_occurrences_append, hfit]
    simp only [and_iff_left forall_occurrences_mentions, Option.some.injEq, forall_eq', true_and]
    exact hgrouped

/-- The parts of a traversal stand in it one behind the other. -/
theorem Traversal.drop_parts (first second third : Traversal) (mentions : List Mention) :
    ∃ after inside last, (first ++ second ++ third ++ { mentions }).occurrences.drop 0 =
        first.nodes ++ after ∧
      (first ++ second ++ third ++ { mentions }).occurrences.drop first.nodes.length =
        second.nodes ++ inside ∧
      (first ++ second ++ third ++ { mentions }).occurrences.drop (first ++ second).nodes.length =
        third.nodes ++ last := by
  obtain ⟨whole, hw⟩ : ∃ whole, whole = (first ++ second ++ third ++ { mentions }).occurrences :=
    ⟨_, rfl⟩
  have hfirst : whole.drop 0 = first.nodes ++ (second.nodes ++ (third.nodes ++
      (first ++ second ++ third ++ { mentions }).deployments.map Deployment.occurrence)) := by
    rw [hw, occurrences]
    simp
  have hsecond := drop_of_drop_append hfirst
  have hthird := drop_of_drop_append hsecond
  rw [Nat.zero_add] at hsecond hthird
  rw [← List.length_append, ← nodes_append] at hthird
  rw [← hw]
  exact ⟨_, _, _, hfirst, hsecond, hthird⟩

/-- Groups among the members of a model fit if those among the elements and those among the
environments do. -/
theorem Model.allGroupsFit_iff {model : Model} :
    Element.AllGroupsFit .model model.members ↔
      Element.AllGroupsFit .model model.elements ∧
        Element.AllGroupsFit .model model.environments := by
  simp only [Element.allGroupsFit_iff, Model.elements, Model.environments, List.mem_filter]
  constructor
  · intro h
    exact ⟨fun member hm => h member hm.1, fun member hm => h member hm.1⟩
  · intro ⟨h, h'⟩ member hm
    by_cases hr : member.rankInModel = 4
    · exact h' member ⟨hm, decide_eq_true hr⟩
    · exact h member ⟨hm, decide_eq_true hr⟩

/-- The elements of a model in which every body takes its members fit exactly if the members of
groups do; only elements of a sort that groups take may not fit. -/
theorem Model.fits_traverse {model : Model} (hn : model.Nested) :
    ((∀ occurrence ∈ model.traverse.occurrences, occurrence.Fits model.traverse.occurrences) ↔
      model.GroupsFit) ∧
      ∀ occurrence ∈ model.traverse.occurrences,
        occurrence.FitsOrGrouped model.traverse.occurrences := by
  have hheld : ∀ kind, BodyKind.model.allows kind = true → BodyKind.model.holds kind = true :=
    fun _ => BodyKind.holds_of_allows nofun
  have hmembers := Element.allNested_iff.mp hn.members
  have helements : Element.AllNested .model model.elements :=
    Element.allNested_iff.mpr fun member hm => hmembers member (List.mem_filter.mp hm).1
  have henvironments : Element.AllNested .model model.environments :=
    Element.allNested_iff.mpr fun member hm => hmembers member (List.mem_filter.mp hm).1
  obtain ⟨elements, he⟩ : ∃ part, part = Element.traverseAll none 0 model.elements := ⟨_, rfl⟩
  obtain ⟨inside, hi⟩ : ∃ part,
      part = Enterprise.traverse elements.nodes.length model.enterprise := ⟨_, rfl⟩
  obtain ⟨environments, hv⟩ : ∃ part, part = Element.traverseAll none
      (elements ++ inside).nodes.length model.environments := ⟨_, rfl⟩
  have ht : model.traverse = elements ++ inside ++ environments ++
      { mentions := mentionsIn none model.relationships } := by
    rw [hv, hi, he]
    rfl
  obtain ⟨_, _, _, hfirst, hsecond, hthird⟩ := Traversal.drop_parts elements inside environments
    (mentionsIn none model.relationships)
  rw [← ht] at hfirst hsecond hthird
  rw [he] at hfirst
  rw [hi] at hsecond
  rw [hv] at hthird
  obtain ⟨helementsFit, helementsGrouped⟩ :=
    Element.fits_outside hheld (fun _ _ => rfl) helements hfirst
  obtain ⟨hinsideFit, hinsideGrouped⟩ := Enterprise.fits_traverse hn.enterprise hsecond
  obtain ⟨henvironmentsFit, henvironmentsGrouped⟩ :=
    Element.fits_outside hheld (fun _ _ => rfl) henvironments hthird
  have hsplit : ∀ good : Occurrence → Prop,
      (∀ occurrence ∈ model.traverse.occurrences, good occurrence) ↔
        ((∀ occurrence ∈ elements.occurrences, good occurrence) ∧
          ∀ occurrence ∈ inside.occurrences, good occurrence) ∧
            ∀ occurrence ∈ environments.occurrences, good occurrence := by
    intro good
    rw [ht]
    simp only [forall_occurrences_append, and_iff_left forall_occurrences_mentions]
  rw [← he] at helementsFit helementsGrouped
  rw [← hi] at hinsideFit hinsideGrouped
  rw [← hv] at henvironmentsFit henvironmentsGrouped
  rw [hsplit, hsplit, helementsFit, hinsideFit, henvironmentsFit]
  refine ⟨?_, ⟨helementsGrouped, hinsideGrouped⟩, henvironmentsGrouped⟩
  constructor
  · intro ⟨⟨hfit, hin⟩, hfit'⟩
    exact ⟨Model.allGroupsFit_iff.mpr ⟨hfit, hfit'⟩, hin⟩
  · intro h
    obtain ⟨hfit, hfit'⟩ := Model.allGroupsFit_iff.mp h.members
    exact ⟨⟨hfit, h.enterprise⟩, hfit'⟩

end Blueprint.Declared
