import Blueprint.Compilation
import Blueprint.Proofs.Build.Shown
import Blueprint.Proofs.Grammar.Parse
import Blueprint.Proofs.Integrity

/-!
# Nothing is lost without an error

Where compiling a source reports no error, the workspace has everything that is declared: every
element with its parent, every relationship with its ends, every view with what it shows, every
section and every decision, in the order in which they are built. What is left out is reported.
-/

namespace Blueprint

namespace Build

open Resolved (IsAt)

/-- The registry that references are resolved in: that of all declared elements. -/
def registryOf (declared : Declared.Workspace) : Registry := (registerAll declared).value.registry

/-- The views that are declared, in the order in which they are built. -/
def viewsOf (declared : Declared.Workspace) : List Declared.View :=
  (declared.views.map Declared.Views.views).getD []

/-- A section is what a declared one says; where that gives no number, it has its place. -/
structure Tells (made : Resolved.Section) (declared : Declared.Section × Nat) : Prop where
  /-- The title is kept. -/
  title : made.title = declared.1.title
  /-- The text is kept. -/
  content : made.content = declared.1.content
  /-- The format is kept. -/
  format : made.format = declared.1.format
  /-- A number that is given is kept. -/
  given : ∀ order, declared.1.order = some order → made.order = order
  /-- Without a number the section is numbered by its place, counted from one on. -/
  counted : declared.1.order = none → made.order = declared.2

/-- The documentation is what a block says. Each section of the block makes one section; they stand
in the order of their numbers, and those of one number in the order in which they are declared. -/
structure Documents (made : Resolved.Documentation) (block : Declared.Documentation) : Prop where
  /-- The text is kept. -/
  content : made.content = block.content
  /-- The format is kept. -/
  format : made.format = block.format
  /-- The sections are those that are declared. -/
  sections : ∃ written, List.Forall₂ Tells written (block.sections.zipIdx 1) ∧
    made.sections.Perm written ∧
    ∀ order, made.sections.filter (·.order = order) = written.filter (·.order = order)
  /-- The sections stand in the order of their numbers. -/
  ordered : made.sections.Pairwise fun first second => first.order ≤ second.order

/-- A decision is what a declared one says. -/
structure Records (made : Resolved.Decision) (declared : Declared.Decision) : Prop where
  /-- The identifier is kept. -/
  id : made.id = declared.id
  /-- The title is kept. -/
  title : made.title = declared.title
  /-- The date is kept. -/
  date : made.date = declared.date
  /-- The status is kept. -/
  status : made.status = declared.status
  /-- The text is kept. -/
  content : made.content = declared.content
  /-- The format is kept. -/
  format : made.format = declared.format
  /-- The links to other decisions are kept. -/
  links : made.links = declared.links

/-- A workspace has everything that is declared. -/
structure Represents (declared : Declared.Workspace) (workspace : Resolved.Workspace) : Prop where
  /-- The traversal of a model meets everything in it. -/
  covers : ∀ model, declared.model = some model → declared.traverse.Covers model.nodes
  /-- There is one element for each declaration, in the order of the traversal. -/
  elements : List.Forall₂ (Resolved.Element.Matches workspace.model.elements)
    workspace.model.elements declared.traverse.occurrences
  /-- There is one relationship for each declaration, in the order of the traversal. -/
  relationships : List.Forall₂ (Draws (registryOf declared) workspace.model.elements)
    (declaredOf workspace.model.relationships) declared.traverse.relationships
  /-- A relationship that starts at `this` starts at the element around it. -/
  sources : List.Forall₂
    (fun relationship mention => mention.relationship.source = "this" →
      IsAt workspace.model.elements mention.outer (some relationship.source))
    (declaredOf workspace.model.relationships) declared.traverse.relationships
  /-- The name of the enterprise is kept. -/
  enterprise : workspace.model.enterprise =
    declared.model.bind fun model => model.enterprise.map Declared.Enterprise.name
  /-- There is one view for each declaration, in the order in which they are built. -/
  views : List.Forall₂ (Shows (registryOf declared)) workspace.views (viewsOf declared)
  /-- The base of a filtered view is a view. -/
  bases : ∀ view ∈ viewsOf declared, ∀ base mode tags, view.sort = .filtered base mode tags →
    base ∈ workspace.views.map Resolved.View.key
  /-- The documentation is what is declared. -/
  documentation : Option.Rel Documents workspace.documentation declared.documentation
  /-- There is one decision for each declaration, in their order. -/
  decisions : List.Forall₂ Records workspace.decisions declared.decisions
  /-- The name is kept. -/
  name : workspace.name = declared.name
  /-- The description is kept. -/
  description : workspace.description = declared.description
  /-- The properties are kept. -/
  properties : workspace.properties = declared.properties
  /-- The settings are kept. -/
  configuration : workspace.configuration = declared.configuration

/-! ## Documentation and decisions -/

/-- Numbering makes one section of each, with its place where no number is given. -/
theorem tells_numberSections (count : Nat) (sections : List Declared.Section) :
    List.Forall₂ Tells (numberSections count sections) (sections.zipIdx (count + 1)) := by
  induction sections generalizing count with
  | nil => exact .nil
  | cons declared rest ih =>
    rw [numberSections, List.zipIdx_cons]
    refine .cons ⟨rfl, rfl, rfl, fun order ho => ?_, fun hn => ?_⟩ (ih (count + 1))
    · rw [ho]
      rfl
    · rw [hn]
      rfl

/-- The order of sections by their numbers. -/
def precedes (first second : Resolved.Section) : Bool := first.order ≤ second.order

/-- A section that precedes another one precedes what that one precedes. -/
theorem precedes_trans (first second third : Resolved.Section) (h : precedes first second = true)
    (hn : precedes second third = true) : precedes first third = true :=
  decide_eq_true (Int.le_trans (of_decide_eq_true h) (of_decide_eq_true hn))

/-- Of two sections one precedes the other. -/
theorem precedes_total (first second : Resolved.Section) :
    (precedes first second || precedes second first) = true := by
  rw [Bool.or_eq_true, precedes, precedes, decide_eq_true_eq, decide_eq_true_eq]
  omega

/-- Sorting keeps the order of the sections of one number. -/
theorem filter_mergeSort (sections : List Resolved.Section) (order : Int) :
    (sections.mergeSort precedes).filter (·.order = order) =
      sections.filter (·.order = order) := by
  have hequal : (sections.filter (·.order = order)).Pairwise (precedes · ·) := by
    rw [List.pairwise_filter]
    refine List.pairwise_of_forall fun first second hf hs => decide_eq_true ?_
    exact Int.le_of_eq ((of_decide_eq_true hf).trans (of_decide_eq_true hs).symm)
  have hsub : (sections.filter (·.order = order)).Sublist
      ((sections.mergeSort precedes).filter (·.order = order)) := by
    have h := (List.sublist_mergeSort precedes_trans precedes_total hequal
      List.filter_sublist).filter (·.order = order)
    simp only [List.filter_filter, Bool.and_self] at h
    exact h
  have hlength := ((List.mergeSort_perm sections precedes).filter (·.order = order)).length_eq
  exact (hsub.eq_of_length hlength.symm).symm

/-- The documentation that a block makes is what the block says. -/
theorem documents_makeDocumentation (block : Declared.Documentation) :
    Documents (makeDocumentation block) block where
  content := rfl
  format := rfl
  sections := ⟨numberSections 0 block.sections, tells_numberSections 0 block.sections,
    List.mergeSort_perm _ _, filter_mergeSort _⟩
  ordered := by
    have hs := List.pairwise_mergeSort precedes_trans precedes_total
      (numberSections 0 block.sections)
    exact hs.imp fun h => of_decide_eq_true h

/-- The decision that a declaration makes is what the declaration says. -/
theorem records_makeDecision (declared : Declared.Decision) :
    Records (makeDecision declared) declared :=
  ⟨rfl, rfl, rfl, rfl, rfl, rfl, rfl⟩

/-- Decisions that are added without an error are all there, behind those that are known. -/
theorem addDecisions_records {known : List Resolved.Decision} {declared : List Declared.Decision}
    (hc : (addDecisions known declared).Clean) :
    ∃ made, (addDecisions known declared).value = known ++ made ∧
      List.Forall₂ Records made declared := by
  induction declared generalizing known with
  | nil => exact ⟨[], (List.append_nil _).symm, .nil⟩
  | cons first declared ih =>
    rw [addDecisions] at hc ⊢
    split at hc
    · exact absurd (Reported.clean_bind.mp hc).1 (Reported.not_clean_report rfl)
    · rename_i hn
      obtain ⟨made, he, hr⟩ := ih hc
      rw [if_neg hn, he, List.append_assoc]
      exact ⟨makeDecision first :: made, rfl, .cons (records_makeDecision first) hr⟩

/-! ## Workspaces -/

/-- The views of a block that are bound without an error are those that are declared. -/
theorem bindDeclared_shows {spots : Position → Prop} {registry : Registry}
    {declared : Declared.Workspace} (hl : declared.Located spots)
    (hc : (bindDeclared registry declared.views).Clean) :
    List.Forall₂ (Shows registry) (bindDeclared registry declared.views).value
        (viewsOf declared) ∧
      ∀ view ∈ viewsOf declared, ∀ base mode tags, view.sort = .filtered base mode tags →
        base ∈ (bindDeclared registry declared.views).value.map Resolved.View.key := by
  unfold viewsOf
  cases hb : declared.views with
  | none => exact ⟨.nil, fun view hm => (by cases hm)⟩
  | some block =>
    rw [hb] at hc
    unfold bindDeclared bindBlock at hc ⊢
    dsimp only at hc ⊢
    obtain ⟨hviews, hc⟩ := Reported.clean_bind.mp hc
    obtain ⟨hbases, _⟩ := Reported.clean_bind.mp hc
    obtain ⟨views, hv, hs⟩ := bindViews_shows (hl.views block hb) hviews
    rw [List.nil_append] at hv
    have hmem := mem_of_checkBases hbases
    rw [hv] at hmem
    rw [Reported.bind_value, hv]
    exact ⟨hs, hmem⟩

/-- A workspace that is built without an error has everything that is declared. -/
theorem represents_build {spots : Position → Prop} {declared : Declared.Workspace}
    (hl : declared.Located spots) {implied : Bool} (hc : (build declared implied).Clean) :
    Represents declared (build declared implied).value := by
  have hs := registerAll_sound declared
  obtain ⟨he, _⟩ := buildModel_linked declared hs implied
  unfold build buildWith at hc ⊢
  obtain ⟨hc, _⟩ := Reported.clean_bind.mp hc
  obtain ⟨_, hc⟩ := Reported.clean_bind.mp hc
  obtain ⟨hregister, hc⟩ := Reported.clean_bind.mp hc
  obtain ⟨hmodel, hc⟩ := Reported.clean_bind.mp hc
  obtain ⟨hviews, hc⟩ := Reported.clean_bind.mp hc
  obtain ⟨hdecisions, _⟩ := Reported.clean_bind.mp hc
  have hregisters := registerAll_registers hl hregister
  have hdraws := buildModel_draws hregisters hmodel
  obtain ⟨hshows, hbases⟩ := bindDeclared_shows hl hviews
  obtain ⟨made, hmade, hrecords⟩ := addDecisions_records hdecisions
  simp only [Reported.bind_value, Reported.pure_value]
  refine ⟨?_, ?_, ?_, ?_, enterprise_buildModel .., hshows, hbases, ?_, hmade ▸ hrecords, rfl, rfl,
    rfl, rfl⟩
  · intro model hm
    unfold Declared.Workspace.traverse
    rw [hm]
    exact model.covers_traverse
  · rw [he]
    exact hregisters.elements
  · rw [he]
    exact hdraws
  · rw [he]
    exact hdraws.imp fun relationship mention hd => hd.source_this hs
  · cases declared.documentation with
    | none => exact .none
    | some block => exact .some (documents_makeDocumentation block)

end Build

namespace Compilation

open Build (Represents)

/-- What compiles without an error is what was read without an error, and was built from it without
an error. -/
theorem exists_outcome {source : String} {settings : Settings} {compilation : Compilation}
    (h : ofSource source settings = .ok compilation)
    (hc : ∀ diagnostic ∈ compilation.diagnostics, diagnostic.isError = false) :
    ∃ outcome, Grammar.parse source settings.maxErrors = .ok outcome ∧
      compilation.declared = outcome.workspace ∧
      compilation.workspace =
        (Build.build outcome.workspace settings.impliedRelationships).value ∧
      (∀ diagnostic ∈ outcome.diagnostics, diagnostic.isError = false) ∧
      (Build.build outcome.workspace settings.impliedRelationships).Clean := by
  obtain ⟨outcome, hp, he⟩ := ofSource_eq_ok_iff.mp h
  split at he
  · rename_i hf
    subst he
    cases (Report.hasFatal_eq_false hc).symm.trans hf
  · subst he
    obtain ⟨hread, hbuilt⟩ := List.forall_mem_append.mp hc
    exact ⟨outcome, hp, rfl, rfl, hread, hbuilt⟩

/-- A source that is compiled without an error yields a workspace with everything that it
declares. -/
theorem represents_ofSource {source : String} {settings : Settings} {compilation : Compilation}
    (h : ofSource source settings = .ok compilation)
    (hc : ∀ diagnostic ∈ compilation.diagnostics, diagnostic.isError = false) :
    Represents compilation.declared compilation.workspace := by
  obtain ⟨outcome, hp, hdeclared, hbuilt, -, hclean⟩ := exists_outcome h hc
  rw [hdeclared, hbuilt]
  exact Build.represents_build (Grammar.located_of_parse hp) hclean

/-- A source with a relationship in the body of a software system, with two sections, of which the
first is numbered behind the second, and with a decision. -/
def usedSystem : String :=
  "workspace \x7b\n model \x7b\n u = person \"User\"\n s = softwareSystem \"System\" \x7b\n" ++
    "u -> this \"Uses\"\n \x7d\n \x7d\n" ++
    "documentation \x7b\n section \"Later\" \x7b\n order 5\n \x7d\n" ++
    "section \"Sooner\" \"Here\"\n \x7d\n" ++
    "decisions \x7b\n decision 1 \x7b\n title \"Use it\"\n \x7d\n \x7d\n \x7d"

/-- The source is compiled without an error, and nothing of it is lost. -/
theorem represents_usedSystem :
    ∃ compilation, ofSource usedSystem {} = .ok compilation ∧
      (∀ diagnostic ∈ compilation.diagnostics, diagnostic.isError = false) ∧
      Represents compilation.declared compilation.workspace ∧
      compilation.workspace.model.elements.map Resolved.Element.id = ["u", "s"] ∧
      compilation.declared.documentation.map (fun block => block.sections.length) = some 2 ∧
      compilation.workspace.decisions.map Resolved.Decision.title = ["Use it"] := by
  have hd : (ofSource usedSystem {}).toOption.map (fun compilation =>
      (compilation.diagnostics, compilation.workspace.model.elements.map Resolved.Element.id,
        compilation.declared.documentation.map (fun block => block.sections.length),
        compilation.workspace.decisions.map Resolved.Decision.title)) =
      some ([], ["u", "s"], some 2, ["Use it"]) := by
    decide +kernel
  obtain ⟨compilation, hp, he⟩ := exists_ok_of_map hd
  simp only [Prod.mk.injEq] at he
  have hc : ∀ diagnostic ∈ compilation.diagnostics, diagnostic.isError = false := by
    intro diagnostic hm
    rw [he.1] at hm
    cases hm
  exact ⟨compilation, hp, hc, represents_ofSource hp hc, he.2⟩

end Compilation

end Blueprint
