import Blueprint.Proofs.Completeness
import Blueprint.Proofs.Resolved.Ancestors
import Blueprint.Proofs.Tier.Fit
import Mathlib.Data.List.Nodup

/-!
# The levels of a workspace

People, software systems and deployment environments stand in no element, containers in software
systems, components in containers, and the parts of a deployment in deployment environments and
nodes. In a workspace that is built without an error this holds of all parts of deployments. It
holds of all elements exactly if the members of groups fit, since a group may have members that the
body around it does not take.
-/

namespace Blueprint

namespace Resolved

/-- An element stands in an element of one of some classes. -/
def Element.StandsInOne (elements : List Element) (classes : List ElementClass)
    (element : Element) : Prop :=
  ∃ parent ∈ elements, element.parent = some parent.id ∧ parent.kind ∈ classes

/-- An element stands where elements of its class belong. A group may stand anywhere. -/
def Element.AtLevel (elements : List Element) (element : Element) : Prop :=
  match element.kind with
  | .person | .softwareSystem | .deploymentEnvironment => element.parent = none
  | .container => element.StandsInOne elements [.softwareSystem]
  | .component => element.StandsInOne elements [.container]
  | .deploymentNode => element.StandsInOne elements [.deploymentEnvironment, .deploymentNode]
  | .infrastructureNode | .softwareSystemInstance | .containerInstance =>
    element.StandsInOne elements [.deploymentNode]
  | .group | .element => True

/-- The classes of the parts of a deployment. -/
def deploymentClasses : List ElementClass :=
  [.deploymentEnvironment, .deploymentNode, .infrastructureNode, .softwareSystemInstance,
    .containerInstance]

/-- Every element stands where elements of its class belong. -/
def Workspace.RespectsLevels (workspace : Workspace) : Prop :=
  ∀ element ∈ workspace.model.elements, element.AtLevel workspace.model.elements

end Resolved

/-- The class of the elements that have a body of a kind. -/
def Grammar.BodyKind.elementClass : Grammar.BodyKind → ElementClass
  | .model | .enterprise => .element
  | .person => .person
  | .softwareSystem => .softwareSystem
  | .container => .container
  | .component => .component
  | .group => .group
  | .deploymentEnvironment => .deploymentEnvironment
  | .deploymentNode => .deploymentNode
  | .infrastructureNode => .infrastructureNode
  | .softwareSystemInstance => .softwareSystemInstance
  | .containerInstance => .containerInstance

namespace Resolved

open Grammar (BodyKind)
open Declared (Occurrence bodyAt)

variable {elements : List Element} {element parent : Element} {whole : List Occurrence}

/-- An element has the class of the body that its declaration has. -/
theorem Element.Stands.kind_eq {node : Declared.Element} (h : element.Stands node) :
    element.kind = node.bodyKind.elementClass := by
  cases node with
  | plain sort details relationships members =>
    rw [h.kind]
    cases sort <;> rfl
  | environment heading relationships members => exact h.1
  | deployed deployment relationships =>
    rw [h.1, Declared.Element.bodyKind]
    cases deployment.instanceOf <;> rfl

/-- The body of an element is neither that of a model nor that of an enterprise. -/
theorem bodyKind_ne (node : Declared.Element) :
    node.bodyKind ≠ .model ∧ node.bodyKind ≠ .enterprise := by
  have hsort : ∀ sort : Declared.PlainSort,
      sort.bodyKind ≠ .model ∧ sort.bodyKind ≠ .enterprise := by
    intro sort
    cases sort <;> simp [Declared.PlainSort.bodyKind]
  have hinstance : ∀ instanceOf : Declared.InstanceOf,
      instanceOf.bodyKind ≠ .model ∧ instanceOf.bodyKind ≠ .enterprise := by
    intro instanceOf
    cases instanceOf <;> decide
  cases node with
  | plain sort details relationships members => exact hsort sort
  | environment heading relationships members => simp [Declared.Element.bodyKind]
  | deployed deployment relationships => exact hinstance deployment.instanceOf

/-- Where identifiers are distinct, an element stands in one of some classes if its parent is of
one. -/
theorem Element.standsInOne_iff (hd : (elements.map Element.id).Nodup) (hm : parent ∈ elements)
    (hp : element.parent = some parent.id) {classes : List ElementClass} :
    element.StandsInOne elements classes ↔ parent.kind ∈ classes := by
  constructor
  · intro ⟨other, ho, he, hk⟩
    have hid : other.id = parent.id := by
      rw [hp] at he
      exact (Option.some.inj he).symm
    rw [← List.inj_on_of_nodup_map hd ho hm hid]
    exact hk
  · intro hk
    exact ⟨parent, hm, hp, hk⟩

/-- An element without a parent stands in none. -/
theorem Element.not_standsInOne (hp : element.parent = none) {classes : List ElementClass} :
    ¬element.StandsInOne elements classes := by
  intro ⟨parent, _, he, _⟩
  rw [hp] at he
  cases he

/-- An element outside of all elements is at its level exactly if the model holds it. -/
theorem Element.atLevel_iff_outside (hp : element.parent = none) {kind : BodyKind}
    (hk : element.kind = kind.elementClass) (hn : kind ≠ .model ∧ kind ≠ .enterprise) :
    element.AtLevel elements ↔ BodyKind.model.holds kind = true := by
  have hnone : ∀ classes, ¬element.StandsInOne elements classes :=
    fun _ => Element.not_standsInOne hp
  unfold Element.AtLevel
  rw [hk]
  cases kind <;> first
    | exact absurd rfl hn.1
    | exact absurd rfl hn.2
    | simp [BodyKind.elementClass, BodyKind.holds, BodyKind.allows, hp, hnone]

/-- An element inside another one is at its level exactly if the body of that one holds it. -/
theorem Element.atLevel_iff_inside (hd : (elements.map Element.id).Nodup) (hm : parent ∈ elements)
    (hp : element.parent = some parent.id) {around kind : BodyKind}
    (hk : element.kind = kind.elementClass) (ha : parent.kind = around.elementClass)
    (hn : kind ≠ .model ∧ kind ≠ .enterprise) (hr : around ≠ .model ∧ around ≠ .enterprise) :
    element.AtLevel elements ↔ around.holds kind = true := by
  have hiff : ∀ classes, element.StandsInOne elements classes ↔ parent.kind ∈ classes :=
    fun _ => Element.standsInOne_iff hd hm hp
  have hnone : element.parent ≠ none := hp ▸ Option.some_ne_none _
  unfold Element.AtLevel
  rw [hk]
  cases kind with
  | model => exact absurd rfl hn.1
  | enterprise => exact absurd rfl hn.2
  | _ =>
    simp only [BodyKind.elementClass, hiff, hnone, ha]
    cases around with
    | model => exact absurd rfl hr.1
    | enterprise => exact absurd rfl hr.2
    | _ => decide

/-- An element is at its level exactly if its declaration fits. -/
theorem Element.Matches.atLevel_iff (hd : (elements.map Element.id).Nodup)
    (hall : List.Forall₂ (Element.Matches elements) elements whole) {occurrence : Occurrence}
    (h : element.Matches elements occurrence) :
    element.AtLevel elements ↔ occurrence.Fits whole := by
  have hk := h.stands.kind_eq
  have hn := bodyKind_ne occurrence.node
  have hp := h.parent
  unfold Occurrence.Fits
  cases ho : occurrence.outer with
  | none =>
    rw [ho] at hp
    exact Element.atLevel_iff_outside hp hk hn
  | some place =>
    rw [ho] at hp
    obtain ⟨parent, he, hi⟩ := hp
    obtain ⟨hlt, he⟩ := List.getElem?_eq_some_iff.mp he
    have hlt' : place < whole.length := hall.length_eq ▸ hlt
    have hmatch := hall.get hlt hlt'
    have hbody : bodyAt whole (some place) = (whole[place]).node.bodyKind := by
      simp [bodyAt, hlt']
    rw [hbody]
    refine Element.atLevel_iff_inside hd (List.mem_of_getElem he) hi hk ?_ hn (bodyKind_ne _)
    rw [← he]
    exact hmatch.stands.kind_eq

/-- What holds of one of two related items exactly if it holds of the other holds of all of the one
sort exactly if it holds of all of the other. -/
theorem forall_iff_of_forall₂ {α β : Type} {related : α → β → Prop} {first : List α}
    {second : List β} (h : List.Forall₂ related first second) {p : α → Prop} {q : β → Prop}
    (hpq : ∀ x y, related x y → (p x ↔ q y)) : (∀ x ∈ first, p x) ↔ ∀ y ∈ second, q y := by
  induction h with
  | nil => simp
  | cons hr _ ih => rw [List.forall_mem_cons, List.forall_mem_cons, hpq _ _ hr, ih]

end Resolved

namespace Declared

/-- The elements of a workspace in which every body takes its members fit exactly if the members of
groups do; only elements of a sort that groups take may not fit. -/
theorem Workspace.fits_traverse {workspace : Workspace}
    (hn : ∀ model, workspace.model = some model → model.Nested) :
    ((∀ occurrence ∈ workspace.traverse.occurrences,
        occurrence.Fits workspace.traverse.occurrences) ↔ workspace.GroupsFit) ∧
      ∀ occurrence ∈ workspace.traverse.occurrences,
        occurrence.FitsOrGrouped workspace.traverse.occurrences := by
  unfold Workspace.GroupsFit Workspace.traverse
  cases hm : workspace.model with
  | none => simp [Traversal.occurrences]
  | some model =>
    obtain ⟨hfit, hgrouped⟩ := Model.fits_traverse (hn model hm)
    refine ⟨?_, hgrouped⟩
    simp only [Option.some.injEq, forall_eq']
    exact hfit

end Declared

namespace Compilation

open Resolved (Workspace.RespectsLevels deploymentClasses)

variable {source : String} {settings : Settings} {compilation : Compilation}

/-- In the workspace of a source that compiles without an error the parts of deployments are at
their levels, and all elements are exactly if the members of groups fit. -/
theorem respectsLevels_ofSource (h : ofSource source settings = .ok compilation)
    (hc : ∀ diagnostic ∈ compilation.diagnostics, diagnostic.isError = false) :
    (∀ element ∈ compilation.workspace.model.elements, element.kind ∈ deploymentClasses →
      element.AtLevel compilation.workspace.model.elements) ∧
      (compilation.workspace.RespectsLevels ↔ compilation.declared.GroupsFit) := by
  obtain ⟨outcome, hp, hdeclared, hbuilt, -, hclean⟩ := exists_outcome h hc
  have hall : List.Forall₂ (Resolved.Element.Matches compilation.workspace.model.elements)
      compilation.workspace.model.elements compilation.declared.traverse.occurrences := by
    rw [hbuilt, hdeclared]
    exact (Build.represents_build (Grammar.located_of_parse hp) hclean).elements
  have hdistinct : (compilation.workspace.model.elements.map Resolved.Element.id).Nodup := by
    rw [hbuilt]
    exact (Build.isTree_build _ _).distinct
  have hnested : ∀ model, compilation.declared.model = some model → model.Nested := by
    rw [hdeclared]
    exact Grammar.nested_of_parse hp
  obtain ⟨hfit, hgrouped⟩ := Declared.Workspace.fits_traverse hnested
  have hlevel : ∀ (element : Resolved.Element) (occurrence : Declared.Occurrence),
      element.Matches compilation.workspace.model.elements occurrence →
        (element.AtLevel compilation.workspace.model.elements ↔
          occurrence.Fits compilation.declared.traverse.occurrences) :=
    fun _ _ hm => hm.atLevel_iff hdistinct hall
  constructor
  · refine (Resolved.forall_iff_of_forall₂ hall (q := fun occurrence =>
      occurrence.node.bodyKind.elementClass ∈ deploymentClasses →
        occurrence.Fits compilation.declared.traverse.occurrences) ?_).mpr ?_
    · intro element occurrence hm
      rw [hm.stands.kind_eq, hlevel element occurrence hm]
    · intro occurrence ho hk
      refine (hgrouped occurrence ho).resolve_left fun ha => ?_
      revert hk ha
      cases occurrence.node.bodyKind <;> decide
  · rw [← hfit]
    exact Resolved.forall_iff_of_forall₂ hall hlevel

/-- A source with groups in the model and in a software system, and a deployment. -/
def groupedShop : String :=
  "workspace \x7b\n model \x7b\n group \"Sales\" \x7b\n shop = softwareSystem \"Shop\" \x7b\n" ++
    "group \"Front\" \x7b\n site = container \"Site\"\n \x7d\n \x7d\n \x7d\n" ++
    "deploymentEnvironment \"Live\" \x7b\n deploymentNode \"Host\" \x7b\n" ++
    "containerInstance site\n \x7d\n \x7d\n \x7d\n \x7d"

/-- The levels of the source are respected exactly if its groups fit. -/
theorem respectsLevels_groupedShop :
    ∃ compilation, ofSource groupedShop {} = .ok compilation ∧
      (∀ diagnostic ∈ compilation.diagnostics, diagnostic.isError = false) ∧
      ((∀ element ∈ compilation.workspace.model.elements, element.kind ∈ deploymentClasses →
        element.AtLevel compilation.workspace.model.elements) ∧
        (compilation.workspace.RespectsLevels ↔ compilation.declared.GroupsFit)) ∧
      compilation.workspace.model.elements.map (fun element => (element.id, element.parent)) =
        [("Sales", none), ("shop", none), ("Front", some "shop"), ("site", some "shop"),
          ("Live", none), ("Host", some "Live"), ("site-instance-1", some "Host")] := by
  have hd : (ofSource groupedShop {}).toOption.map (fun compilation =>
      (compilation.diagnostics,
        compilation.workspace.model.elements.map fun element => (element.id, element.parent))) =
      some ([], [("Sales", none), ("shop", none), ("Front", some "shop"), ("site", some "shop"),
        ("Live", none), ("Host", some "Live"), ("site-instance-1", some "Host")]) := by
    decide +kernel
  obtain ⟨compilation, hp, he⟩ := exists_ok_of_map hd
  simp only [Prod.mk.injEq] at he
  have hc : ∀ diagnostic ∈ compilation.diagnostics, diagnostic.isError = false := by
    intro diagnostic hm
    rw [he.1] at hm
    cases hm
  exact ⟨compilation, hp, hc, respectsLevels_ofSource hp hc, he.2⟩

/-- A source with a container in a group of the model. -/
def strayContainer : String :=
  "workspace \x7b\n model \x7b\n group \"G\" \x7b\n web = container \"Web\"\n \x7d\n \x7d\n \x7d"

/-- The source compiles without an error, and the container stands in no software system. -/
theorem not_respectsLevels_strayContainer :
    ∃ compilation, ofSource strayContainer {} = .ok compilation ∧
      compilation.diagnostics = [] ∧ ¬compilation.workspace.RespectsLevels := by
  have hd : (ofSource strayContainer {}).toOption.map (fun compilation =>
      (compilation.diagnostics,
        compilation.workspace.model.elements.map fun element => (element.kind, element.parent))) =
      some ([], [(.group, none), (.container, none)]) := by
    decide +kernel
  obtain ⟨compilation, hp, he⟩ := exists_ok_of_map hd
  simp only [Prod.mk.injEq] at he
  refine ⟨compilation, hp, he.1, fun hl => ?_⟩
  have hm : ((.container, none) : ElementClass × Option String) ∈
      compilation.workspace.model.elements.map fun element => (element.kind, element.parent) := by
    rw [he.2]
    simp
  obtain ⟨element, hm, hk⟩ := List.mem_map.mp hm
  have hlevel := hl element hm
  unfold Resolved.Element.AtLevel at hlevel
  rw [(Prod.mk.inj hk).1] at hlevel
  exact Resolved.Element.not_standsInOne (Prod.mk.inj hk).2 hlevel

end Compilation

end Blueprint
